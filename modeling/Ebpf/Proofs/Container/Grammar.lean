import Ebpf.Proofs.Container.Reader
import Ebpf.Proofs.Program

/-! # The containers that are read

Reading succeeds on the layouts that keep the limits of the format, with any bytes behind them, and
its result has the functions of the layout and of each identifier the first declaration. No input
starts with two such layouts that leave the same rest.
-/

namespace Ebpf.Container

variable {input rest : List UInt8} {l l' : Layout} {p : Program}

theorem Reader.Reads.unique {α : Type} {x : Reader α} {good : α → Prop} {written : α → List UInt8}
    (h : Reads x good written) {a b : α} (ha : good a) (hb : good b)
    (heq : written a ++ rest = written b ++ rest) : a = b := by
  have hx := (h _ a rest).mpr ⟨ha, rfl⟩
  have hy := (h _ b rest).mpr ⟨hb, heq⟩
  cases hx.symm.trans hy
  rfl

theorem eq_of_bytes_eq (hl : l.Fits ∧ l.Canonical) (hl' : l'.Fits ∧ l'.Canonical)
    (h : l.bytes = l'.bytes) : l = l' :=
  Reader.layout_reads.unique hl hl' (congrArg (· ++ ([] : List UInt8)) h)

theorem read_eq_ok_iff : read input = .ok (p, rest) ↔
    ∃ l : Layout, (l.Fits ∧ l.Canonical) ∧ input = l.bytes ++ rest ∧
      Program.build l.functions l.imports = .ok p := by
  unfold read
  constructor
  · intro h
    obtain ⟨⟨l, mid⟩, hl, h⟩ := bind_eq_ok_iff.mp h
    obtain ⟨hgood, hinput⟩ := (Reader.layout_reads _ _ _).mp hl
    dsimp only at h
    split at h
    · rename_i q hq
      cases h
      exact ⟨l, hgood, hinput, hq⟩
    · cases h
  · rintro ⟨l, hgood, hinput, hp⟩
    refine bind_eq_ok_iff.mpr ⟨(l, rest), (Reader.layout_reads _ _ _).mpr ⟨hgood, hinput⟩, ?_⟩
    dsimp only
    rw [hp]
    rfl

/-- Reading accepts exactly the written layouts that keep the limits and declare no identifier under
two signatures; of repeated declarations the first counts. -/
theorem read_eq_ok_iff_written : read input = .ok (p, rest) ↔
    ∃ l : Layout, l.Fits ∧ l.Canonical ∧ Program.Compatible l.imports ∧
      input = l.bytes ++ rest ∧ p.functions = l.functions ∧
      ∀ id, p.imports.get? id = IdMap.first? l.imports id := by
  rw [read_eq_ok_iff]
  refine exists_congr fun l => ?_
  rw [Program.build_eq_ok_iff]
  constructor
  · rintro ⟨⟨hfits, hcanonical⟩, hinput, -, hcompatible, hfunctions, himports⟩
    exact ⟨hfits, hcanonical, hcompatible, hinput, hfunctions, himports⟩
  · rintro ⟨hfits, hcanonical, hcompatible, hinput, hfunctions, himports⟩
    exact ⟨⟨hfits, hcanonical⟩, hinput, hfits.slots_le, hcompatible, hfunctions, himports⟩

end Ebpf.Container
