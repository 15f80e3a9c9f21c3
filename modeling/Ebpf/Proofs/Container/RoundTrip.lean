import Ebpf.Container.Writer
import Ebpf.Proofs.Container.Grammar

/-! # Saving and loading

A saved program is loaded again, except that a declaration under the empty name comes back unnamed.
A loaded program has no such declaration and can be saved; the bytes are those it was loaded from
exactly if these list the declarations by ascending identifier.
-/

namespace Ebpf

/-- The declaration that a container holds: the empty name stands for no name. -/
def Declaration.stored (d : Declaration) : Declaration :=
  if d.name = some "" then { d with name := none } else d

/-- The program that a container holds. -/
def Program.stored (p : Program) : Program := { p with imports := p.imports.map Declaration.stored }

namespace Declaration

variable {d : Declaration}

theorem stored_of_name_eq (h : d.name = some "") : d.stored = { d with name := none } := if_pos h

theorem stored_of_name_ne (h : d.name ≠ some "") : d.stored = d := if_neg h

theorem stored_name_ne : d.stored.name ≠ some "" := by
  by_cases h : d.name = some ""
  · rw [stored_of_name_eq h]
    exact nofun
  · rwa [stored_of_name_ne h]

theorem stored_getD : d.stored.name.getD "" = d.name.getD "" := by
  by_cases h : d.name = some ""
  · rw [stored_of_name_eq h, h]
    rfl
  · rw [stored_of_name_ne h]

theorem stored_signature : d.stored.signature = d.signature := by
  unfold stored
  split <;> rfl

end Declaration

namespace Container

variable {input output rest : List UInt8} {l : Layout} {p : Program}

theorem checkName_eq_ok_iff {name : String} :
    checkName name = .ok () ↔ name.utf8ByteSize ≤ maxNameLength := by
  unfold checkName
  split
  · rename_i h
    exact ⟨nofun, fun hle => absurd h (Nat.not_lt.mpr hle)⟩
  · rename_i h
    exact ⟨fun _ => Nat.not_lt.mp h, fun _ => rfl⟩

theorem checkLimits_eq_ok_iff : checkLimits p = .ok () ↔ (layoutOf p).Fits := by
  unfold checkLimits
  simp only [guard_eq_ok_iff, bind_unit_eq_ok_iff, forM_eq_ok_iff, checkName_eq_ok_iff, Nat.not_lt]
  constructor
  · rintro ⟨hfs, hf, his, hi⟩
    exact ⟨hfs, hf, p.size_le, his, hi⟩
  · intro h
    exact ⟨h.functions_le, h.functionName_le, h.imports_le, h.importName_le⟩

theorem write_eq_ok_iff :
    write p = .ok output ↔ (layoutOf p).Fits ∧ output = (layoutOf p).bytes := by
  unfold write
  rw [bind_unit_eq_ok_iff, checkLimits_eq_ok_iff]
  refine and_congr_right fun _ => ?_
  constructor
  · rintro ⟨⟩
    rfl
  · rintro rfl
    rfl

theorem mem_imports_stored {e : UInt32 × Declaration} :
    e ∈ (layoutOf p.stored).imports ↔ ∃ i ∈ (layoutOf p).imports, (i.1, i.2.stored) = e :=
  List.mem_map

theorem bytes_stored : (layoutOf p.stored).bytes = (layoutOf p).bytes := by
  have hbytes : (layoutOf p.stored).imports.flatMap importBytes
      = (layoutOf p).imports.flatMap importBytes := by
    refine (List.flatMap_map ..).trans (List.flatMap_congr fun i _ => ?_)
    rw [importBytes, importBytes, Declaration.stored_getD, Declaration.stored_signature]
  have hlength : (layoutOf p.stored).imports.length = (layoutOf p).imports.length :=
    List.length_map _
  rw [Layout.bytes, Layout.bytes, hbytes, hlength]
  rfl

theorem fits_stored (h : (layoutOf p).Fits) : (layoutOf p.stored).Fits where
  functions_le := h.functions_le
  functionName_le := h.functionName_le
  slots_le := h.slots_le
  imports_le := Nat.le_trans (Nat.le_of_eq (List.length_map _)) h.imports_le
  importName_le e he := by
    obtain ⟨i, hi, rfl⟩ := mem_imports_stored.mp he
    rw [Declaration.stored_getD]
    exact h.importName_le i hi

theorem canonical_stored : (layoutOf p.stored).Canonical := by
  intro e he
  obtain ⟨i, -, rfl⟩ := mem_imports_stored.mp he
  exact Declaration.stored_name_ne

theorem build_layoutOf (p : Program) :
    Program.build (layoutOf p).functions (layoutOf p).imports = .ok p := by
  refine Program.build_eq_ok_iff.mpr ⟨p.size_le, ?_, rfl, fun _ => rfl⟩
  rintro ⟨k, a⟩ hi ⟨id, b⟩ hj rfl
  have ha := IdMap.get?_eq_some_iff.mpr hi
  have hb := IdMap.get?_eq_some_iff.mpr hj
  cases ha.symm.trans hb
  rfl

theorem read_of_write (h : write p = .ok output) :
    read (output ++ rest) = .ok (p.stored, rest) := by
  obtain ⟨hfits, rfl⟩ := write_eq_ok_iff.mp h
  rw [← bytes_stored]
  exact read_eq_ok_iff.mpr
    ⟨layoutOf p.stored, ⟨fits_stored hfits, canonical_stored⟩, rfl, build_layoutOf p.stored⟩

theorem stored_eq_self_iff : p.stored = p ↔ (layoutOf p).Canonical := by
  constructor
  · intro h
    rw [← h]
    exact canonical_stored
  · intro h
    have himports : p.imports.map Declaration.stored = p.imports := by
      apply IdMap.ext_get?
      intro id
      rw [IdMap.get?_map]
      cases hd : p.imports.get? id with
      | none => rfl
      | some d =>
        exact congrArg some (Declaration.stored_of_name_ne (h _ (IdMap.get?_eq_some_iff.mp hd)))
    unfold Program.stored
    rw [himports]

/-- What is saved and then loaded is the program without empty names, and nothing is read beyond it.
This is the program itself exactly if it declares nothing under the empty name. -/
theorem read_write (h : write p = .ok output) (rest : List UInt8) :
    read (output ++ rest) = .ok (p.stored, rest) ∧
      (p.stored = p ↔ ∀ id d, p.imports.get? id = some d → d.name ≠ some "") := by
  refine ⟨read_of_write h, stored_eq_self_iff.trans ?_⟩
  constructor
  · intro hc id d hd
    exact hc _ (IdMap.get?_eq_some_iff.mp hd)
  · rintro hc ⟨id, d⟩ hd
    exact hc id d (IdMap.get?_eq_some_iff.mpr hd)

/-- One declaration has the empty name, another one has none. -/
def emptyNamed : Program where
  functions := [⟨"main", .constant, #[0x95]⟩]
  imports := ⟨[(7, ⟨none, .constant⟩), (200, ⟨some "", .full⟩)], by decide⟩
  size_le := by decide

theorem write_emptyNamed : write emptyNamed = .ok (layoutOf emptyNamed).bytes :=
  write_eq_ok_iff.mpr ⟨by constructor <;> decide, rfl⟩

/-- The declaration under the empty name is not loaded as it was saved. -/
theorem read_emptyNamed : ∃ output, write emptyNamed = .ok output ∧
    ∃ p, read output = .ok (p, []) ∧ p ≠ emptyNamed ∧
      emptyNamed.imports.get? 200 = some ⟨some "", .full⟩ ∧
      p.imports.get? 200 = some ⟨none, .full⟩ := by
  refine ⟨_, write_emptyNamed, emptyNamed.stored, ?_, by decide, rfl, rfl⟩
  rw [← List.append_nil (layoutOf emptyNamed).bytes]
  exact read_of_write write_emptyNamed

theorem read_write_emptyNamed : ∃ output, write emptyNamed = .ok output ∧
    read (output ++ [1, 2]) = .ok (emptyNamed.stored, [1, 2]) ∧
    (emptyNamed.stored = emptyNamed ↔
      ∀ id d, emptyNamed.imports.get? id = some d → d.name ≠ some "") :=
  ⟨_, write_emptyNamed, read_write write_emptyNamed [1, 2]⟩

theorem layoutOf_good (hl : l.Fits ∧ l.Canonical)
    (hp : Program.build l.functions l.imports = .ok p) :
    (layoutOf p).Fits ∧ (layoutOf p).Canonical := by
  obtain ⟨-, -, hfunctions, -⟩ := Program.build_eq_ok_iff.mp hp
  have hmem : ∀ i ∈ p.imports.toList, i ∈ l.imports := fun _ => Program.mem_of_build_eq_ok hp
  refine ⟨⟨?_, ?_, p.size_le, ?_, ?_⟩, ?_⟩
  · rw [layoutOf, hfunctions]
    exact hl.1.functions_le
  · rw [layoutOf, hfunctions]
    exact hl.1.functionName_le
  · exact Nat.le_trans (IdMap.size_le_of_subset hmem) hl.1.imports_le
  · exact fun i hi => hl.1.importName_le i (hmem i hi)
  · exact fun i hi => hl.2 i (hmem i hi)

/-- Loading keeps a list of declarations as it is if it is ascending. -/
theorem layoutOf_eq_iff (hp : Program.build l.functions l.imports = .ok p) :
    layoutOf p = l ↔ (l.imports.map Prod.fst).Pairwise (· < ·) := by
  constructor
  · intro h
    rw [← h]
    exact p.imports.ascending
  · intro h
    obtain ⟨-, -, hfunctions, himports⟩ := Program.build_eq_ok_iff.mp hp
    have hp : p.imports = ⟨l.imports, h⟩ := IdMap.ext_get? himports
    rw [layoutOf, hfunctions, hp]

/-- A loaded program can be saved and loaded again. The bytes it was loaded from are the layout of
one list of functions and one of declarations; saving puts the program's declarations in place of
the latter, so it gives these bytes again exactly if they list the declarations by strictly
ascending identifier. -/
theorem write_of_read (h : read input = .ok (p, rest)) :
    ∃ l : Layout, (∀ l' : Layout, l'.Fits ∧ l'.Canonical ∧ input = l'.bytes ++ rest ↔ l' = l) ∧
      ∃ output, write p = .ok output ∧ read output = .ok (p, []) ∧
        output = ({ l with imports := p.imports.toList } : Layout).bytes ∧
        (output = l.bytes ↔ (l.imports.map Prod.fst).Pairwise (· < ·)) := by
  obtain ⟨l, hl, rfl, hp⟩ := read_eq_ok_iff.mp h
  have hgood := layoutOf_good hl hp
  have hwrite : write p = .ok (layoutOf p).bytes := write_eq_ok_iff.mpr ⟨hgood.1, rfl⟩
  refine ⟨l, fun l' => ?_, _, hwrite, ?_, ?_, ?_⟩
  · constructor
    · rintro ⟨hfits, hcanonical, hbytes⟩
      exact eq_of_bytes_eq ⟨hfits, hcanonical⟩ hl (List.append_cancel_right hbytes.symm)
    · rintro rfl
      exact ⟨hl.1, hl.2, rfl⟩
  · have hread : read ((layoutOf p).bytes ++ []) = .ok (p.stored, []) := read_of_write hwrite
    rwa [List.append_nil, stored_eq_self_iff.mpr hgood.2] at hread
  · obtain ⟨-, -, hfunctions, -⟩ := Program.build_eq_ok_iff.mp hp
    rw [layoutOf, hfunctions]
  · rw [← layoutOf_eq_iff hp]
    exact ⟨eq_of_bytes_eq hgood hl, congrArg _⟩

/-- The declarations are not in order, and one of them is repeated. -/
def unordered : Layout where
  functions := [⟨"main", .constant, #[0x95]⟩]
  imports := [(200, ⟨some "a", .full⟩), (7, ⟨none, .constant⟩), (200, ⟨some "b", .full⟩)]

theorem write_unordered : ∃ p output,
    read (unordered.bytes ++ [1, 2]) = .ok (p, [1, 2]) ∧ write p = .ok output ∧
      read output = .ok (p, []) ∧ output ≠ unordered.bytes := by
  have hgood : unordered.Fits ∧ unordered.Canonical :=
    ⟨by constructor <;> decide, by decide⟩
  obtain ⟨p, hp⟩ : ∃ p, Program.build unordered.functions unordered.imports = .ok p := ⟨_, rfl⟩
  have hread : read (unordered.bytes ++ [1, 2]) = .ok (p, [1, 2]) :=
    read_eq_ok_iff.mpr ⟨unordered, hgood, rfl, hp⟩
  obtain ⟨l, hl, output, hwrite, hload, -, hiff⟩ := write_of_read hread
  obtain rfl : unordered = l := (hl unordered).mp ⟨hgood.1, hgood.2, rfl⟩
  exact ⟨p, output, hread, hwrite, hload, mt hiff.mp (by decide)⟩

end Container

end Ebpf
