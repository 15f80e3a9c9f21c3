import Ebpf.Proofs.Machine.Memory

/-! # Sequences of loads and stores

A map of bytes answers loads and stores by itself: an access succeeds if each of its addresses has
a byte, a load reads the bytes there and a store replaces them. Memory answers every sequence of
loads and stores as this map does, so each address holds the byte that was stored there last.
-/

namespace Ebpf

inductive MemoryCall where
  | load (addr : UInt64) (len : Nat)
  | store (addr : UInt64) (len : Nat) (value : UInt64)
  deriving DecidableEq

namespace MemoryCall

def addr : MemoryCall → UInt64
  | load addr _ | store addr _ _ => addr

def len : MemoryCall → Nat
  | load _ len | store _ len _ => len

def Narrow (c : MemoryCall) : Prop := 1 ≤ c.len ∧ c.len ≤ 8

instance (c : MemoryCall) : Decidable c.Narrow := inferInstanceAs (Decidable (_ ∧ _))

/-- The byte that a call stores at address `a` of a memory whose context has `size` bytes. -/
def stored? (size : Nat) (c : MemoryCall) (a : Nat) : Option UInt8 :=
  match c with
  | load .. => none
  | store addr len value =>
    if Covered size addr len ∧ addr.toNat ≤ a ∧ a < addr.toNat + len then
      some (byteOf value (a - addr.toNat))
    else none

/-- The byte that the last successful store to address `a` has put there. -/
def lastStored? (size : Nat) (cs : List MemoryCall) (a : Nat) : Option UInt8 :=
  cs.reverse.findSome? (·.stored? size a)

end MemoryCall

namespace ByteMap

def initial (context : Array UInt8) : ByteMap := fun a =>
  if contextBase ≤ a ∧ a < contextBase + context.size then context[a - contextBase]?
  else if stackBase ≤ a ∧ a < stackBase + stackSize then some 0
  else none

def Has (b : ByteMap) (addr : UInt64) (len : Nat) : Prop :=
  ∀ k < len, (b (addr.toNat + k)).isSome

instance (b : ByteMap) (addr : UInt64) (len : Nat) : Decidable (b.Has addr len) :=
  inferInstanceAs (Decidable (∀ k < len, _))

def load (b : ByteMap) (addr : UInt64) (len : Nat) : Except Fault Nat :=
  if b.Has addr len then .ok (littleEndian (fun k => (b (addr.toNat + k)).getD 0) len)
  else .error (.outOfBounds addr len)

/-- Replaces the bytes at `len` addresses from `addr` on, and no others. -/
def put (b : ByteMap) (addr : UInt64) (len : Nat) (value : UInt64) : ByteMap := fun a =>
  if addr.toNat ≤ a ∧ a < addr.toNat + len then some (byteOf value (a - addr.toNat)) else b a

def store (b : ByteMap) (addr : UInt64) (len : Nat) (value : UInt64) : Except Fault ByteMap :=
  if b.Has addr len then .ok (b.put addr len value) else .error (.outOfBounds addr len)

/-- The answer to a call, which is a number if the call is a load, and the map behind it. -/
def call (b : ByteMap) : MemoryCall → Except Fault (Option Nat) × ByteMap
  | .load addr len => ((b.load addr len).map some, b)
  | .store addr len value =>
    match b.store addr len value with
    | .ok next => (.ok none, next)
    | .error fault => (.error fault, b)

def after (b : ByteMap) (cs : List MemoryCall) : ByteMap := cs.foldl (fun b c => (b.call c).2) b

end ByteMap

namespace Memory

def call (m : Memory) : MemoryCall → Except Fault (Option Nat) × Memory
  | .load addr len => ((m.load addr len).map fun value => some value.toNat, m)
  | .store addr len value =>
    match m.store addr len value with
    | .ok next => (.ok none, next)
    | .error fault => (.error fault, m)

def after (m : Memory) (cs : List MemoryCall) : Memory := cs.foldl (fun m c => (m.call c).2) m

variable {m : Memory} {c : MemoryCall} {cs : List MemoryCall} {addr value : UInt64} {len : Nat}

theorem has_iff : m.byte?.Has addr len ↔ Covered m.context.size addr len := by
  simp only [ByteMap.Has, isSome_byte?_iff, Covered]

theorem load_eq (hpos : 1 ≤ len) (hlen : len ≤ 8) :
    (m.load addr len).map UInt64.toNat = m.byte?.load addr len := by
  unfold ByteMap.load
  by_cases hc : Covered m.context.size addr len
  · obtain ⟨⟨region, start⟩, hf⟩ := (covered_iff hpos hlen).mp hc
    have hload := load_of_locate? hf
    rw [if_pos (has_iff.mpr hc), ← toNat_of_load hlen hload, hload]
    rfl
  · rw [if_neg (mt has_iff.mp hc), load, (locate?_eq_none_iff hpos hlen).mpr hc]
    rfl

theorem store_eq (hpos : 1 ≤ len) (hlen : len ≤ 8) :
    (m.store addr len value).map byte? = m.byte?.store addr len value := by
  unfold ByteMap.store store
  by_cases hc : Covered m.context.size addr len
  · obtain ⟨⟨region, start⟩, hf⟩ := (covered_iff hpos hlen).mp hc
    obtain ⟨ha, hle⟩ := locate?_eq_some hf
    have hput : (m.write region start len value).byte? = m.byte?.put addr len value := by
      funext a
      rw [byte?_write hle, ByteMap.put, ha]
    rw [if_pos (has_iff.mpr hc), hf, ← hput]
    rfl
  · rw [if_neg (mt has_iff.mp hc), (locate?_eq_none_iff hpos hlen).mpr hc]
    rfl

theorem call_eq (h : c.Narrow) :
    (m.call c).1 = (m.byte?.call c).1 ∧ (m.call c).2.byte? = (m.byte?.call c).2 := by
  obtain ⟨hpos, hlen⟩ := h
  cases c with
  | load addr len =>
    dsimp only [MemoryCall.len] at hpos hlen
    rw [ByteMap.call, ← load_eq hpos hlen, call]
    cases m.load addr len <;> exact ⟨rfl, rfl⟩
  | store addr len value =>
    dsimp only [MemoryCall.len] at hpos hlen
    rw [ByteMap.call, ← store_eq hpos hlen, call]
    cases m.store addr len value <;> exact ⟨rfl, rfl⟩

theorem size_context_store {next : Memory} (h : m.store addr len value = .ok next) :
    next.context.size = m.context.size := by
  unfold store at h
  split at h
  · cases h
    exact size_context_write ..
  · cases h

theorem size_context_call (m : Memory) (c : MemoryCall) :
    (m.call c).2.context.size = m.context.size := by
  cases c with
  | load addr len => rfl
  | store addr len value =>
    unfold call
    dsimp only
    split
    · rename_i next h
      exact size_context_store h
    · rfl

theorem byte?_call (h : c.Narrow) (a : Nat) :
    (m.call c).2.byte? a = (c.stored? m.context.size a).or (m.byte? a) := by
  rw [(call_eq h).2]
  cases c with
  | load addr len => rw [MemoryCall.stored?, Option.none_or, ByteMap.call]
  | store addr len value =>
    rw [MemoryCall.stored?, ByteMap.call, ByteMap.store]
    by_cases hc : Covered m.context.size addr len
    · rw [if_pos (has_iff.mpr hc)]
      simp only [hc, true_and, ByteMap.put]
      split <;> rfl
    · rw [if_neg (mt has_iff.mp hc), if_neg fun hs => hc hs.1, Option.none_or]

theorem size_context_after (m : Memory) (cs : List MemoryCall) :
    (m.after cs).context.size = m.context.size := by
  induction cs generalizing m with
  | nil => rfl
  | cons c cs ih => exact (ih _).trans (size_context_call m c)

theorem byte?_after (h : ∀ c ∈ cs, c.Narrow) : (m.after cs).byte? = m.byte?.after cs := by
  induction cs generalizing m with
  | nil => rfl
  | cons c cs ih =>
    obtain ⟨hc, hcs⟩ := List.forall_mem_cons.mp h
    rw [ByteMap.after, List.foldl_cons, ← (call_eq hc).2]
    exact ih hcs

theorem byte?_after_eq_lastStored? (h : ∀ c ∈ cs, c.Narrow) (a : Nat) : (m.after cs).byte? a =
    (MemoryCall.lastStored? m.context.size cs a).or (m.byte? a) := by
  induction cs generalizing m with
  | nil => rfl
  | cons c cs ih =>
    obtain ⟨hc, hcs⟩ := List.forall_mem_cons.mp h
    have hlast : MemoryCall.lastStored? m.context.size (c :: cs) a =
        (MemoryCall.lastStored? m.context.size cs a).or (c.stored? m.context.size a) := by
      simp [MemoryCall.lastStored?, List.findSome?_append]
    have hrest := ih (m := (m.call c).2) hcs
    rw [size_context_call, byte?_call hc, ← Option.or_assoc, ← hlast] at hrest
    exact hrest

theorem byte?_of_withContext {context : Array UInt8} (h : withContext context = .ok m) :
    m.byte? = ByteMap.initial context := by
  unfold withContext at h
  split at h
  · cases h
    funext a
    unfold ByteMap.initial
    split
    · rename_i hin
      obtain ⟨k, rfl⟩ := Nat.exists_eq_add_of_le hin.1
      rw [Nat.add_sub_cancel_left]
      exact byte?_contextBase_add (Nat.lt_of_add_lt_add_left hin.2)
    · rename_i hcontext
      split
      · rename_i hin
        obtain ⟨k, rfl⟩ := Nat.exists_eq_add_of_le hin.1
        have hk : k < stackSize := Nat.lt_of_add_lt_add_left hin.2
        rw [byte?_stackBase_add hk]
        exact (Array.getElem?_replicate).trans (if_pos hk)
      · rename_i hstack
        rw [← Option.not_isSome_iff_eq_none, isSome_byte?_iff]
        exact not_or.mpr ⟨hcontext, hstack⟩
  · cases h

theorem call_of_not_covered (h : c.Narrow) (hc : ¬ Covered m.context.size c.addr c.len) :
    m.call c = (.error (.outOfBounds c.addr c.len), m) := by
  have hnone := (locate?_eq_none_iff h.1 h.2).mpr hc
  cases c with
  | load addr len =>
    have hload : m.load addr len = .error (.outOfBounds addr len) := by
      rw [load, show m.locate? addr len = none from hnone]
    rw [call, hload]
    rfl
  | store addr len value =>
    have hstore : m.store addr len value = .error (.outOfBounds addr len) := by
      rw [store, show m.locate? addr len = none from hnone]
    rw [call, hstore]
    rfl

theorem call_eq_ok_iff (h : c.Narrow) :
    (∃ answer, (m.call c).1 = .ok answer) ↔ Covered m.context.size c.addr c.len := by
  constructor
  · rintro ⟨answer, hok⟩
    by_contra hc
    rw [call_of_not_covered h hc] at hok
    cases hok
  · intro hc
    rw [(call_eq h).1]
    cases c with
    | load addr len =>
      have hhas : m.byte?.Has addr len := has_iff.mpr hc
      exact ⟨_, by rw [ByteMap.call, ByteMap.load, if_pos hhas]; rfl⟩
    | store addr len value =>
      have hhas : m.byte?.Has addr len := has_iff.mpr hc
      exact ⟨none, by rw [ByteMap.call, ByteMap.store, if_pos hhas]⟩

/-- A new memory answers every sequence of calls as the map of its bytes does. A call succeeds
exactly if it lies within the context and the stack, and else it changes nothing. Each address holds
the byte that was stored there last, or else the byte that it held at first. -/
theorem calls_eq_byteMap (context : Array UInt8) (hsize : context.size ≤ maxContext) :
    ∃ m, withContext context = .ok m ∧
      ∀ cs : List MemoryCall, (∀ c ∈ cs, c.Narrow) →
        (m.after cs).byte? = (ByteMap.initial context).after cs ∧
        (∀ a, (m.after cs).byte? a =
          (MemoryCall.lastStored? context.size cs a).or (ByteMap.initial context a)) ∧
        ∀ c : MemoryCall, c.Narrow →
          ((m.after cs).call c).1 = (((ByteMap.initial context).after cs).call c).1 ∧
          ((∃ answer, ((m.after cs).call c).1 = .ok answer) ↔
            Covered context.size c.addr c.len) ∧
          (¬ Covered context.size c.addr c.len →
            (m.after cs).call c = (.error (.outOfBounds c.addr c.len), m.after cs)) := by
  have hm : withContext context = .ok ⟨context, .replicate stackSize 0, hsize, size_blank⟩ :=
    dif_pos hsize
  refine ⟨_, hm, fun cs hcs => ?_⟩
  have hbytes := byte?_of_withContext hm
  refine ⟨?_, fun a => ?_, fun c hc => ⟨?_, ?_, fun hcovered => ?_⟩⟩
  · rw [byte?_after hcs, hbytes]
  · rw [byte?_after_eq_lastStored? hcs, hbytes]
  · rw [(call_eq hc).1, byte?_after hcs, hbytes]
  · rw [call_eq_ok_iff hc, size_context_after]
  · refine call_of_not_covered hc ?_
    rwa [size_context_after]

/-- A load over the middle of two stores that overlap. -/
theorem calls_eq_byteMap_overlap : ∃ m, withContext #[1, 2, 3] = .ok m ∧
    ((m.after [.store 0x200001f8 8 0x1122334455667788, .store 0x200001fa 2 0xaabb]).call
      (.load 0x200001f9 4)).1 = .ok (some 0x44aabb77) := by
  obtain ⟨m, hm, h⟩ := calls_eq_byteMap #[1, 2, 3] (by decide)
  obtain ⟨-, -, hcall⟩ :=
    h [.store 0x200001f8 8 0x1122334455667788, .store 0x200001fa 2 0xaabb] (by decide)
  exact ⟨m, hm, (hcall (.load 0x200001f9 4) (by decide)).1.trans (by decide +kernel)⟩

end Memory

end Ebpf
