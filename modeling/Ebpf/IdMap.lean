/-! # Maps keyed by helper identifiers

A finite map whose entries are listed by ascending identifier. `get?` determines the map,
and each operation is described by what it does to `get?`.
-/

namespace Ebpf

structure IdMap (α : Type) where
  toList : List (UInt32 × α)
  ascending : (toList.map Prod.fst).Pairwise (· < ·)
  deriving DecidableEq

namespace IdMap

variable {α : Type}

def empty : IdMap α := ⟨[], .nil⟩

instance : Inhabited (IdMap α) := ⟨empty⟩

def get? (m : IdMap α) (id : UInt32) : Option α :=
  (m.toList.find? (·.1 == id)).map Prod.snd

def contains (m : IdMap α) (id : UInt32) : Bool := m.toList.any (·.1 == id)

def size (m : IdMap α) : Nat := m.toList.length

def insertEntry (id : UInt32) (a : α) : List (UInt32 × α) → List (UInt32 × α)
  | [] => [(id, a)]
  | (k, b) :: rest =>
    if id < k then (id, a) :: (k, b) :: rest
    else if id = k then (id, a) :: rest
    else (k, b) :: insertEntry id a rest

theorem mem_map_fst_insertEntry {id k : UInt32} {a : α} {es : List (UInt32 × α)} :
    k ∈ (insertEntry id a es).map Prod.fst ↔ k = id ∨ k ∈ es.map Prod.fst := by
  induction es with
  | nil => simp [insertEntry]
  | cons e rest ih =>
    obtain ⟨j, b⟩ := e
    simp only [insertEntry]
    split
    · simp
    · split
      · rename_i h; subst h; simp
      · simp only [List.map_cons, List.mem_cons, ih]
        constructor
        · rintro (h | h | h)
          · exact .inr (.inl h)
          · exact .inl h
          · exact .inr (.inr h)
        · rintro (h | h | h)
          · exact .inr (.inl h)
          · exact .inl h
          · exact .inr (.inr h)

theorem pairwise_insertEntry {id : UInt32} {a : α} {es : List (UInt32 × α)}
    (h : (es.map Prod.fst).Pairwise (· < ·)) :
    ((insertEntry id a es).map Prod.fst).Pairwise (· < ·) := by
  induction es with
  | nil => simp [insertEntry]
  | cons e rest ih =>
    obtain ⟨j, b⟩ := e
    simp only [List.map_cons, List.pairwise_cons] at h
    simp only [insertEntry]
    split
    · rename_i hlt
      simp only [List.map_cons, List.pairwise_cons, List.mem_cons]
      refine ⟨?_, h.1, h.2⟩
      rintro k (rfl | hk)
      · exact hlt
      · exact UInt32.lt_trans hlt (h.1 k hk)
    · split
      · rename_i heq; subst heq
        simp only [List.map_cons, List.pairwise_cons]
        exact h
      · rename_i hlt hne
        simp only [List.map_cons, List.pairwise_cons]
        refine ⟨fun k hk => ?_, ih h.2⟩
        rcases mem_map_fst_insertEntry.1 hk with rfl | hk
        · exact UInt32.lt_of_le_of_ne (UInt32.not_lt.1 hlt) (Ne.symm hne)
        · exact h.1 k hk

/-- Binds `id` to `a`, in place of any earlier binding. -/
def insert (m : IdMap α) (id : UInt32) (a : α) : IdMap α :=
  ⟨insertEntry id a m.toList, pairwise_insertEntry m.ascending⟩

def erase (m : IdMap α) (id : UInt32) : IdMap α where
  toList := m.toList.filter (·.1 != id)
  ascending := m.ascending.sublist (List.filter_sublist.map Prod.fst)

@[simp] theorem get?_empty (id : UInt32) : (empty : IdMap α).get? id = none := rfl

theorem find?_insertEntry (id k : UInt32) (a : α) (es : List (UInt32 × α))
    (h : (es.map Prod.fst).Pairwise (· < ·)) :
    (insertEntry id a es).find? (·.1 == k)
      = if k = id then some (id, a) else es.find? (·.1 == k) := by
  induction es with
  | nil =>
    by_cases hk : k = id
    · subst hk; simp [insertEntry]
    · simp [insertEntry, hk, Ne.symm hk]
  | cons e rest ih =>
    obtain ⟨j, b⟩ := e
    simp only [List.map_cons, List.pairwise_cons] at h
    have ih := ih h.2
    by_cases hk : k = id
    · subst hk
      simp only [if_true] at ih ⊢
      simp only [insertEntry]
      split
      · simp
      · split
        · simp
        · rename_i hne
          simp [Ne.symm hne, ih]
    · simp only [if_neg hk] at ih ⊢
      simp only [insertEntry]
      split
      · simp [List.find?_cons, Ne.symm hk]
      · split
        · rename_i heq; subst heq; simp [Ne.symm hk]
        · simp only [List.find?_cons, ih]

theorem get?_insert (m : IdMap α) (id k : UInt32) (a : α) :
    (m.insert id a).get? k = if k = id then some a else m.get? k := by
  simp only [get?, insert, find?_insertEntry _ _ _ _ m.ascending]
  split <;> simp

theorem get?_erase (m : IdMap α) (id k : UInt32) :
    (m.erase id).get? k = if k = id then none else m.get? k := by
  simp only [get?, erase, List.find?_filter]
  split
  · rename_i h; subst h
    rw [List.find?_eq_none.2 (by simp)]
    rfl
  · rename_i h
    congr 2
    funext e
    by_cases he : e.1 = k
    · simp [he, h]
    · simp [he]

theorem get?_eq_some_iff {m : IdMap α} {id : UInt32} {a : α} :
    m.get? id = some a ↔ (id, a) ∈ m.toList := by
  have key : ∀ es : List (UInt32 × α), (es.map Prod.fst).Pairwise (· < ·) →
      ((es.find? (·.1 == id)).map Prod.snd = some a ↔ (id, a) ∈ es) := by
    intro es h
    induction es with
    | nil => simp
    | cons e rest ih =>
      obtain ⟨j, b⟩ := e
      simp only [List.map_cons, List.pairwise_cons] at h
      by_cases hj : j = id
      · subst hj
        have hnot : (j, a) ∉ rest := fun hm =>
          UInt32.lt_irrefl j (h.1 j (List.mem_map.2 ⟨_, hm, rfl⟩))
        simp [hnot, eq_comm]
      · simp only [List.find?_cons, beq_eq_false_iff_ne.2 hj, ih h.2, List.mem_cons,
          Prod.mk.injEq, Ne.symm hj, false_and, false_or]
  exact key _ m.ascending

end IdMap

end Ebpf
