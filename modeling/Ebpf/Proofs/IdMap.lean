import Mathlib.Data.List.Nodup
import Mathlib.Data.List.Perm.Subperm
import Ebpf.IdMap

/-! # Maps and entry lists

A map is determined by its look-up. Its entries are distinct, so they are no more than those of any
list that holds them all.
-/

namespace Ebpf.IdMap

variable {α β : Type}

def first? (entries : List (UInt32 × α)) (id : UInt32) : Option α :=
  (entries.find? (·.1 == id)).map Prod.snd

theorem first?_cons (e : UInt32 × α) (entries : List (UInt32 × α)) (id : UInt32) :
    first? (e :: entries) id = if e.1 = id then some e.2 else first? entries id := by
  rw [first?, List.find?_cons]
  split
  · rename_i h
    rw [if_pos (eq_of_beq h)]
    rfl
  · rename_i h
    rw [if_neg (ne_of_beq_false h)]
    rfl

theorem mem_of_first? {entries : List (UInt32 × α)} {id : UInt32} {a : α}
    (h : first? entries id = some a) : (id, a) ∈ entries := by
  obtain ⟨⟨k, b⟩, hfind, rfl⟩ := Option.map_eq_some_iff.mp h
  obtain rfl : k = id := by simpa using List.find?_some hfind
  exact List.mem_of_find?_eq_some hfind

theorem exists_first? {entries : List (UInt32 × α)} {e : UInt32 × α} (h : e ∈ entries) :
    ∃ a, first? entries e.1 = some a := by
  induction entries with
  | nil => cases h
  | cons d entries ih =>
    rw [first?_cons]
    split
    · exact ⟨d.2, rfl⟩
    · rename_i hne
      rcases List.mem_cons.mp h with rfl | h
      · exact absurd rfl hne
      · exact ih h

theorem first?_eq_some_iff {entries : List (UInt32 × α)} {id : UInt32} {a : α}
    (h : (entries.map Prod.fst).Nodup) : first? entries id = some a ↔ (id, a) ∈ entries := by
  refine ⟨mem_of_first?, fun hmem => ?_⟩
  obtain ⟨b, hb⟩ := exists_first? hmem
  have heq : (id, b) = (id, a) := List.inj_on_of_nodup_map h (mem_of_first? hb) hmem rfl
  cases heq
  exact hb

theorem first?_eq_some_iff_append {entries : List (UInt32 × α)} {id : UInt32} {a : α} :
    first? entries id = some a ↔
      ∃ before after, entries = before ++ (id, a) :: after ∧ ∀ d ∈ before, d.1 ≠ id := by
  have hnot (d : UInt32 × α) : (!(d.1 == id)) = true ↔ d.1 ≠ id := by
    rw [Bool.not_eq_true', beq_eq_false_iff_ne]
  rw [first?, Option.map_eq_some_iff]
  simp only [List.find?_eq_some_iff_append, hnot, beq_iff_eq]
  constructor
  · rintro ⟨⟨k, b⟩, ⟨rfl, before, after, rfl, hbefore⟩, rfl⟩
    exact ⟨before, after, rfl, hbefore⟩
  · rintro ⟨before, after, rfl, hbefore⟩
    exact ⟨(id, a), ⟨rfl, before, after, rfl, hbefore⟩, rfl⟩

theorem isSome_first?_iff {entries : List (UInt32 × α)} {id : UInt32} :
    (first? entries id).isSome ↔ id ∈ entries.map Prod.fst := by
  rw [Option.isSome_iff_exists, List.mem_map]
  constructor
  · rintro ⟨a, ha⟩
    exact ⟨(id, a), mem_of_first? ha, rfl⟩
  · rintro ⟨e, he, rfl⟩
    exact exists_first? he

theorem pairwise_toList (m : IdMap α) : m.toList.Pairwise fun d e => d.1 < e.1 :=
  List.pairwise_map.mp m.ascending

theorem nodup_toList (m : IdMap α) : m.toList.Nodup := by
  refine m.pairwise_toList.imp ?_
  rintro d e hlt rfl
  exact UInt32.lt_irrefl _ hlt

theorem ext_get? {m n : IdMap α} (h : ∀ id, m.get? id = n.get? id) : m = n := by
  have hperm : m.toList.Perm n.toList := by
    rw [List.perm_ext_iff_of_nodup m.nodup_toList n.nodup_toList]
    rintro ⟨id, a⟩
    rw [← get?_eq_some_iff, ← get?_eq_some_iff, h id]
  have heq : m.toList = n.toList :=
    hperm.eq_of_pairwise (fun d e _ _ hlt hgt => absurd hgt (UInt32.lt_asymm hlt))
      m.pairwise_toList n.pairwise_toList
  cases m; cases n; cases heq
  rfl

theorem size_le_of_subset {m : IdMap α} {entries : List (UInt32 × α)}
    (h : ∀ e ∈ m.toList, e ∈ entries) : m.size ≤ entries.length :=
  (m.nodup_toList.subperm h).length_le

theorem mem_map_fst_iff {m : IdMap α} {id : UInt32} :
    id ∈ m.toList.map Prod.fst ↔ (m.get? id).isSome := by
  rw [Option.isSome_iff_exists, List.mem_map]
  constructor
  · rintro ⟨⟨key, a⟩, hmem, rfl⟩
    exact ⟨a, get?_eq_some_iff.mpr hmem⟩
  · rintro ⟨a, ha⟩
    exact ⟨(id, a), get?_eq_some_iff.mp ha, rfl⟩

theorem size_eq_length {m : IdMap α} {ids : List UInt32} (hn : ids.Nodup)
    (h : ∀ id, id ∈ ids ↔ (m.get? id).isSome) : m.size = ids.length := by
  have hkeys : (m.toList.map Prod.fst).Nodup := m.ascending.imp UInt32.ne_of_lt
  have hperm : (m.toList.map Prod.fst).Perm ids := by
    rw [List.perm_ext_iff_of_nodup hkeys hn]
    intro id
    rw [mem_map_fst_iff, h id]
  rw [← hperm.length_eq, List.length_map, size]

theorem get?_foldl_insert {entries : List (UInt32 × α)} (h : (entries.map Prod.fst).Nodup)
    (m : IdMap α) (id : UInt32) : (entries.foldl (fun m e => m.insert e.1 e.2) m).get? id =
      (first? entries id).or (m.get? id) := by
  induction entries generalizing m with
  | nil => rfl
  | cons e entries ih =>
    obtain ⟨hnew, h⟩ := List.nodup_cons.mp h
    rw [List.foldl_cons, ih h, get?_insert, first?_cons]
    by_cases he : id = e.1
    · have hnone : first? entries id = none := by
        rw [Option.eq_none_iff_forall_ne_some]
        intro a ha
        exact hnew (he ▸ List.mem_map_of_mem (mem_of_first? ha))
      rw [if_pos he, if_pos he.symm, hnone]
      rfl
    · rw [if_neg he, if_neg (Ne.symm he)]

def map (f : α → β) (m : IdMap α) : IdMap β where
  toList := m.toList.map fun e => (e.1, f e.2)
  ascending := by
    rw [List.map_map]
    exact m.ascending

theorem map_fst_map (f : α → β) (m : IdMap α) :
    (m.map f).toList.map Prod.fst = m.toList.map Prod.fst := by
  rw [map, List.map_map]
  rfl

theorem get?_map (f : α → β) (m : IdMap α) (id : UInt32) :
    (m.map f).get? id = (m.get? id).map f := by
  rw [get?, get?, map, List.find?_map, Option.map_map, Option.map_map]
  rfl

end Ebpf.IdMap
