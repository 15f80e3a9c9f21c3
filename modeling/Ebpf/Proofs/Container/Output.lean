import Ebpf.Container.Output
import Ebpf.Proofs.Container.RoundTrip

/-! # What is saved

The limits of the format are checked before anything is put, and they make every count and every
length fit its field. So a program is saved as its layout, or nothing of it is.
-/

namespace Ebpf.Container

open Bytes

/-- Every count and every length of the layout fits the field that it is put into. -/
structure Layout.Exact (l : Layout) : Prop where
  functions : (UInt16.ofNat l.functions.length).toNat = l.functions.length
  functionName : ∀ f ∈ l.functions, (UInt16.ofNat f.name.utf8ByteSize).toNat = f.name.utf8ByteSize
  slots : ∀ f ∈ l.functions, (UInt32.ofNat f.code.size).toNat = f.code.size
  imports : (UInt16.ofNat l.imports.length).toNat = l.imports.length
  importName : ∀ i ∈ l.imports, (UInt16.ofNat (i.2.name.getD "").utf8ByteSize).toNat =
    (i.2.name.getD "").utf8ByteSize

variable {l : Layout} {p : Program} {output : List UInt8} {e : Error}

theorem toNat_uInt16_of_le {n limit : Nat} (h : n ≤ limit) (hlimit : limit < UInt16.size) :
    (UInt16.ofNat n).toNat = n :=
  UInt16.toNat_ofNat_of_lt' (Nat.lt_of_le_of_lt h hlimit)

theorem Layout.Fits.exact (h : l.Fits) : l.Exact where
  functions := toNat_uInt16_of_le h.functions_le (by decide)
  functionName f hf := toNat_uInt16_of_le (h.functionName_le f hf) (by decide)
  slots f hf := UInt32.toNat_ofNat_of_lt' (Nat.lt_of_le_of_lt (h.slots_le f hf) (by decide))
  imports := toNat_uInt16_of_le h.imports_le (by decide)
  importName i hi := toNat_uInt16_of_le (h.importName_le i hi) (by decide)

namespace Output

/-- This puts `bytes`, whatever the output holds, and does not fail. -/
def Puts (x : Output Unit) (bytes : List UInt8) : Prop :=
  ∀ output, x.run.run output = (.ok (), output ++ bytes)

variable {α : Type} {x y : Output Unit} {xs ys : List UInt8}

theorem puts_put (bytes : List UInt8) : Puts (put bytes) bytes := fun _ => rfl

theorem Puts.then (hx : Puts x xs) (hy : Puts y ys) : Puts (x >>= fun _ => y) (xs ++ ys) := by
  intro output
  rw [ExceptT.run_bind, StateT.run_bind, hx, ← List.append_assoc, ← hy]
  rfl

theorem Puts.forM {f : α → Output Unit} {written : α → List UInt8} {items : List α}
    (h : ∀ a ∈ items, Puts (f a) (written a)) : Puts (items.forM f) (items.flatMap written) := by
  induction items with
  | nil =>
    intro output
    rw [List.flatMap_nil, List.append_nil]
    rfl
  | cons a items ih =>
    obtain ⟨ha, hitems⟩ := List.forall_mem_cons.mp h
    exact ha.then (ih hitems)

theorem puts_short {n : Nat} (h : (UInt16.ofNat n).toNat = n) : Puts (short n) (ofNat 2 n) := by
  rw [short, h]
  exact puts_put _

theorem puts_long {n : Nat} (h : (UInt32.ofNat n).toNat = n) : Puts (long n) (ofNat 4 n) := by
  rw [long, h]
  exact puts_put _

theorem puts_name {text : String} (h : (UInt16.ofNat text.utf8ByteSize).toNat = text.utf8ByteSize) :
    Puts (name text) (nameBytes text) := by
  rw [nameBytes, length_ofString]
  exact (puts_short h).then (puts_put _)

theorem puts_signature (s : Signature) : Puts (signature s) (signatureBytes s) :=
  (puts_put _).then (puts_put _)

theorem puts_function {f : Function}
    (hname : (UInt16.ofNat f.name.utf8ByteSize).toNat = f.name.utf8ByteSize)
    (hslots : (UInt32.ofNat f.code.size).toNat = f.code.size) :
    Puts (function f) (functionBytes f) := by
  have hwords : Puts (f.code.toList.forM fun word => put (ofWord word)) (ofWords f.code.toList) :=
    .forM fun word _ => puts_put (ofWord word)
  rw [functionBytes, List.append_assoc, List.append_assoc]
  exact (puts_name hname).then ((puts_signature _).then ((puts_long hslots).then hwords))

theorem puts_declaration {i : UInt32 × Declaration}
    (hname : (UInt16.ofNat (i.2.name.getD "").utf8ByteSize).toNat =
      (i.2.name.getD "").utf8ByteSize) : Puts (declaration i) (importBytes i) := by
  rw [importBytes, List.append_assoc]
  exact (puts_put _).then ((puts_signature _).then (puts_name hname))

theorem puts_layout (h : l.Exact) : Puts (layout l) l.bytes := by
  have hfunctions : Puts (l.functions.forM function) (l.functions.flatMap functionBytes) :=
    .forM fun f hf => puts_function (h.functionName f hf) (h.slots f hf)
  have himports : Puts (l.imports.forM declaration) (l.imports.flatMap importBytes) :=
    .forM fun i hi => puts_declaration (h.importName i hi)
  simp only [Layout.bytes, List.append_assoc]
  exact (puts_put _).then ((puts_short h.functions).then
    (hfunctions.then ((puts_short h.imports).then himports)))

end Output

/-- Saving puts the container of the program, or it fails and puts nothing. -/
theorem save_eq (p : Program) (output : List UInt8) : save p output =
    match write p with
    | .ok bytes => (.ok (), output ++ bytes)
    | .error e => (.error e, output) := by
  unfold save Output.program write
  cases h : checkLimits p with
  | error e => rfl
  | ok u => exact Output.puts_layout (checkLimits_eq_ok_iff.mp h).exact output

theorem checkName_ends (name : String) :
    Ends (fun e : Error => e.kind = .limit) (fun _ => True) (checkName name) := by
  unfold checkName
  split
  · rfl
  · trivial

theorem checkLimits_ends (p : Program) :
    Ends (fun e : Error => e.kind = .limit) (fun _ => True) (checkLimits p) := by
  unfold checkLimits
  refine .guard (fun _ => rfl) fun _ => ?_
  refine (Ends.forM fun f _ => checkName_ends f.name).bind fun _ _ => ?_
  refine .guard (fun _ => rfl) fun _ => ?_
  exact .forM fun i _ => checkName_ends _

theorem save_of_fits (h : (layoutOf p).Fits) :
    save p output = (.ok (), output ++ (layoutOf p).bytes) := by
  rw [save_eq, write_eq_ok_iff.mpr ⟨h, rfl⟩]

theorem save_eq_ok_iff : (save p output).1 = .ok () ↔ (layoutOf p).Fits := by
  constructor
  · intro h
    rw [save_eq] at h
    split at h
    · rename_i bytes hwrite
      exact (write_eq_ok_iff.mp hwrite).1
    · cases h
  · intro h
    rw [save_of_fits h]

theorem save_error (h : (save p output).1 = .error e) :
    e.kind = .limit ∧ (save p output).2 = output := by
  rw [save_eq] at h ⊢
  split at h
  · cases h
  · rename_i other hwrite
    cases h
    rcases bind_eq_error_iff.mp hwrite with hlimits | ⟨u, -, hbytes⟩
    · exact ⟨(checkLimits_ends p).of_error hlimits, rfl⟩
    · cases hbytes

theorem layoutOf_fits_iff : (layoutOf p).Fits ↔
    p.functions.length ≤ maxFunctions ∧ p.imports.size ≤ maxImports ∧
      (∀ f ∈ p.functions, f.name.utf8ByteSize ≤ maxNameLength) ∧
      ∀ id d name, p.imports.get? id = some d → d.name = some name →
        name.utf8ByteSize ≤ maxNameLength := by
  constructor
  · intro h
    refine ⟨h.functions_le, h.imports_le, h.functionName_le, ?_⟩
    intro id d name hd hname
    have hle := h.importName_le (id, d) (IdMap.get?_eq_some_iff.mp hd)
    rwa [hname] at hle
  · rintro ⟨hfunctions, himports, hf, hi⟩
    refine ⟨hfunctions, hf, p.size_le, himports, ?_⟩
    rintro ⟨id, d⟩ hmem
    cases hname : d.name with
    | none => exact Nat.zero_le _
    | some name => exact hi id d name (IdMap.get?_eq_some_iff.mpr hmem) hname

/-- A program is saved exactly if it keeps the limits of the format. Then its layout is put, with
every count and length as it is and the declarations by ascending identifier; else nothing is put,
and the error says that a limit is not kept. -/
theorem save_exact (p : Program) (output : List UInt8) :
    ((save p output).1 = .ok () ↔
      p.functions.length ≤ maxFunctions ∧ p.imports.size ≤ maxImports ∧
        (∀ f ∈ p.functions, f.name.utf8ByteSize ≤ maxNameLength) ∧
        ∀ id d name, p.imports.get? id = some d → d.name = some name →
          name.utf8ByteSize ≤ maxNameLength) ∧
    ((save p output).1 = .ok () →
      (save p output).2 = output ++ (layoutOf p).bytes ∧ (layoutOf p).Exact ∧
        ((layoutOf p).imports.map Prod.fst).Pairwise (· < ·)) ∧
    ∀ e, (save p output).1 = .error e → e.kind = .limit ∧ (save p output).2 = output := by
  refine ⟨save_eq_ok_iff.trans layoutOf_fits_iff, ?_, fun _ => save_error⟩
  intro h
  have hfits := save_eq_ok_iff.mp h
  exact ⟨congrArg Prod.snd (save_of_fits hfits), hfits.exact, p.imports.ascending⟩

/-- The name of the declaration has 129 characters and twice as many bytes. -/
def wideNamed : Program where
  functions := [⟨"main", .constant, #[0xb7, 0x95]⟩]
  imports := ⟨[(200, ⟨some (String.ofList (List.replicate 129 'é')), .full⟩)],
    List.pairwise_singleton _ _⟩
  size_le := by decide

theorem save_exact_wideNamed :
    (∃ e, save wideNamed [1, 2] = (.error e, [1, 2]) ∧ e.kind = .limit) ∧
    (save { wideNamed with imports := .empty } [1, 2]).1 = .ok () := by
  obtain ⟨hok, -, herror⟩ := save_exact wideNamed [1, 2]
  obtain ⟨hok', -, -⟩ := save_exact { wideNamed with imports := .empty } [1, 2]
  constructor
  · cases h : (save wideNamed [1, 2]).1 with
    | ok u =>
      obtain ⟨-, -, -, hname⟩ := hok.mp h
      exact absurd (hname 200 _ _ rfl rfl) (by decide +kernel)
    | error e =>
      obtain ⟨hkind, houtput⟩ := herror e h
      exact ⟨e, Prod.ext h houtput, hkind⟩
  · exact hok'.mpr ⟨by decide, by decide, by decide, nofun⟩

end Ebpf.Container
