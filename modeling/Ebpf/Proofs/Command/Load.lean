import Ebpf.Command.Load
import Ebpf.Proofs.Bytes
import Ebpf.Proofs.Config
import Ebpf.Proofs.Container.Flat
import Ebpf.Proofs.Outline

/-! # Loading files

What can be wrong with a configuration file and with a program file, and what of it is reported.
Whether a program file can be loaded does not depend on the signature that is given for flat
binaries, nor does what linking sees of the program. A container does not depend on it at all.
-/

namespace Ebpf

theorem Container.readFlat_parallel (bytes : List UInt8) (signature signature' : Signature) :
    Parallel Program.SameOutline (readFlat bytes signature) (readFlat bytes signature') := by
  cases h : readFlat bytes signature with
  | error e =>
    rw [readFlat_eq_error_iff.mpr (readFlat_eq_error_iff.mp h)]
    exact .error e
  | ok p =>
    obtain ⟨q, hq⟩ := exists_readFlat_iff.mpr (exists_readFlat_iff.mp ⟨p, h⟩)
    obtain ⟨-, hpf, hpi⟩ := single_eq_ok_iff.mp (readFlat_eq_ok_iff.mp h).2.2
    obtain ⟨-, hqf, hqi⟩ := single_eq_ok_iff.mp (readFlat_eq_ok_iff.mp hq).2.2
    rw [hq]
    refine .ok ⟨?_, fun id => ?_⟩
    · rw [hpf, hqf]
      rfl
    · rw [Program.declaredSignature, Program.declaredSignature, hpi, hqi]

namespace Command

variable {parse : String → Option Config} {files : FileStore} {path : String}
  {config : Option String} {c : Config} {e : Error}

section

variable (parse : String → Option Config) (files : FileStore)

/-- The configuration that a command goes by, which is the default if no file is named. -/
inductive Configures : Option String → Config → Prop
  | default : Configures none {}
  | file {path text : String} {c : Config} (h : files path = .ok (Bytes.ofString text))
      (hp : parse text = some c) : Configures (some path) c

inductive BadConfig : Option String → Error → Prop
  | unreadable {path : String} {cause : FileError} (h : files path = .error cause) :
      BadConfig (some path) (.unreadableConfig path cause)
  | notText {path : String} {bytes : List UInt8} (h : files path = .ok bytes)
      (ht : ∀ text, bytes ≠ Bytes.ofString text) :
      BadConfig (some path) (.unreadableConfig path .notText)
  | invalid {path text : String} (h : files path = .ok (Bytes.ofString text))
      (hp : parse text = none) : BadConfig (some path) (.invalidConfig path)

/-- The file holds no program: it cannot be read, or it is no container, or it is no flat binary
because of its length. -/
inductive BadProgram (path : String) : Error → Prop
  | unreadableContainer {cause : FileError} (hpath : isContainerPath path = true)
      (h : files path = .error cause) : BadProgram path (.unreadableContainer path cause)
  | container {bytes : List UInt8} {cause : Container.Error} (hpath : isContainerPath path = true)
      (h : files path = .ok bytes) (hr : Container.read bytes = .error cause) :
      BadProgram path (.container path cause)
  | unreadableFlat {cause : FileError} (hpath : isContainerPath path = false)
      (h : files path = .error cause) : BadProgram path (.unreadableFlat path cause)
  | partialWord {bytes : List UInt8} (hpath : isContainerPath path = false)
      (h : files path = .ok bytes) (hl : bytes.length % 8 ≠ 0) :
      BadProgram path (.flat path (.partialWord bytes.length))
  | tooLarge {bytes : List UInt8} (hpath : isContainerPath path = false)
      (h : files path = .ok bytes) (hl : bytes.length % 8 = 0)
      (hs : maxSlots < bytes.length / 8) :
      BadProgram path (.flat path (.flatTooLarge (bytes.length / 8)))

/-- The configuration or the program file is bad. Of several things that are wrong, the first one is
reported: with the configuration file, with the bindings that it holds, with the program file. -/
inductive Refused (path : String) (config : Option String) : Error → Prop
  | config {e : Error} (h : BadConfig parse files config e) : Refused path config e
  | binding {readings : Readings} {c : Config} {cause : BindingError}
      (hc : Configures parse files config c)
      (h : Config.FirstFailing readings c.bindings cause) : Refused path config (.binding cause)
  | program {readings : Readings} {c : Config} {e : Error} (hc : Configures parse files config c)
      (hgood : ∀ b ∈ c.bindings, b.Good readings) (h : BadProgram files path e) :
      Refused path config e

end

/-! ### Configurations -/

theorem loadConfig_some (parse : String → Option Config) (files : FileStore) (path : String) :
    loadConfig parse files (some path) = match files path with
      | .error cause => .error (.unreadableConfig path cause)
      | .ok bytes => match Bytes.toString? bytes with
        | none => .error (.unreadableConfig path .notText)
        | some text => match parse text with
          | none => .error (.invalidConfig path)
          | some c => .ok c := by
  have hread : files.readText path = match files path with
      | .error cause => .error cause
      | .ok bytes => match Bytes.toString? bytes with
        | none => .error .notText
        | some text => .ok text := by
    unfold FileStore.readText Bytes.toString?
    cases files path with
    | error cause => rfl
    | ok bytes =>
      simp only [bind, Except.bind]
      cases String.fromUTF8? bytes.toByteArray <;> rfl
  rw [loadConfig, hread]
  cases files path with
  | error cause => rfl
  | ok bytes =>
    dsimp only
    cases Bytes.toString? bytes with
    | none => rfl
    | some text => cases h : parse text <;> simp only [h]

theorem loadConfig_cases (parse : String → Option Config) (files : FileStore)
    (config : Option String) :
    (∃ e, loadConfig parse files config = .error e ∧ BadConfig parse files config e) ∨
    ∃ c, loadConfig parse files config = .ok c ∧ Configures parse files config c := by
  cases config with
  | none => exact Or.inr ⟨_, rfl, .default⟩
  | some path =>
    rw [loadConfig_some]
    cases hfile : files path with
    | error cause => exact Or.inl ⟨_, rfl, .unreadable hfile⟩
    | ok bytes =>
      dsimp only
      cases htext : Bytes.toString? bytes with
      | none =>
        refine Or.inl ⟨_, rfl, .notText hfile fun text h => ?_⟩
        cases htext.symm.trans (Bytes.toString?_eq_some_iff.mpr h)
      | some text =>
        obtain rfl := Bytes.toString?_eq_some_iff.mp htext
        dsimp only
        cases hparse : parse text with
        | none => exact Or.inl ⟨_, rfl, .invalid hfile hparse⟩
        | some c => exact Or.inr ⟨_, rfl, .file hfile hparse⟩

theorem BadConfig.loadConfig (h : BadConfig parse files config e) :
    loadConfig parse files config = .error e := by
  cases h with
  | unreadable h => rw [loadConfig_some, h]
  | @notText path bytes h ht =>
    have hnone : Bytes.toString? bytes = none := Option.eq_none_iff_forall_ne_some.mpr
      fun text htext => ht text (Bytes.toString?_eq_some_iff.mp htext)
    simp only [loadConfig_some, h, hnone]
  | @invalid path text h hp =>
    simp only [loadConfig_some, h, Bytes.toString?_eq_some_iff.mpr rfl, hp]

theorem Configures.loadConfig (h : Configures parse files config c) :
    loadConfig parse files config = .ok c := by
  cases h with
  | default => rfl
  | @file path text c h hp =>
    simp only [loadConfig_some, h, Bytes.toString?_eq_some_iff.mpr rfl, hp]

theorem loadConfig_eq_error_iff :
    loadConfig parse files config = .error e ↔ BadConfig parse files config e := by
  refine ⟨fun h => ?_, BadConfig.loadConfig⟩
  rcases loadConfig_cases parse files config with ⟨_, he, hbad⟩ | ⟨_, hc, -⟩
  · cases he.symm.trans h
    exact hbad
  · cases hc.symm.trans h

theorem loadConfig_eq_ok_iff :
    loadConfig parse files config = .ok c ↔ Configures parse files config c := by
  refine ⟨fun h => ?_, Configures.loadConfig⟩
  rcases loadConfig_cases parse files config with ⟨_, he, -⟩ | ⟨_, hc, hgood⟩
  · cases he.symm.trans h
  · cases hc.symm.trans h
    exact hgood

/-! ### Tables -/

theorem configuredTable_eq_error_iff {readings : Readings} :
    configuredTable readings c = .error e ↔
      ∃ cause, Config.FirstFailing readings c.bindings cause ∧ e = .binding cause := by
  rw [configuredTable, mapError_eq_error_iff]
  simp only [Config.helperTable_eq_error_iff, eq_comm (a := e)]

theorem exists_configuredTable_iff {readings : Readings} :
    (∃ t, configuredTable readings c = .ok t) ↔ ∀ b ∈ c.bindings, b.Good readings := by
  simp only [configuredTable, mapError_eq_ok_iff]
  constructor
  · rintro ⟨t, ht⟩
    exact (Config.helperTable_eq_ok_iff.mp ht).1
  · intro h
    obtain ⟨t, ht, -⟩ := Config.helperTable_of_good h
    exact ⟨t, ht⟩

theorem configuredTable_parallel (readings readings' : Readings) (c : Config) :
    Parallel HelperTable.SameFaces (configuredTable readings c) (configuredTable readings' c) :=
  (c.helperTable_parallel readings readings').mapError Error.binding

/-! ### Programs -/

theorem loadProgram_of_container (h : isContainerPath path = true) (files : FileStore)
    (signature signature' : Signature) :
    loadProgram files path signature = loadProgram files path signature' := by
  rw [loadProgram, loadProgram, if_pos h, if_pos h]

theorem loadProgram_parallel (files : FileStore) (path : String)
    (signature signature' : Signature) : Parallel Program.SameOutline
      (loadProgram files path signature) (loadProgram files path signature') := by
  by_cases h : isContainerPath path = true
  · rw [loadProgram_of_container h files signature signature']
    exact .refl Program.SameOutline.refl _
  · rw [loadProgram, loadProgram, if_neg h, if_neg h]
    cases files path with
    | error e => exact .error _
    | ok bytes => exact (Container.readFlat_parallel bytes signature signature').mapError _

theorem BadProgram.loadProgram (h : BadProgram files path e) (signature : Signature) :
    loadProgram files path signature = .error e := by
  cases h with
  | unreadableContainer hpath h => rw [Command.loadProgram, if_pos hpath, h]
  | container hpath h hr => simp only [Command.loadProgram, if_pos hpath, h, hr]
  | unreadableFlat hpath h => simp [Command.loadProgram, hpath, h]
  | partialWord hpath h hl =>
    simp [Command.loadProgram, hpath, h, Container.readFlat_eq_error_iff.mpr (.inl ⟨hl, rfl⟩),
      Except.mapError]
  | tooLarge hpath h hl hs =>
    simp [Command.loadProgram, hpath, h, Container.readFlat_eq_error_iff.mpr (.inr ⟨hl, hs, rfl⟩),
      Except.mapError]

theorem loadProgram_eq_error_iff {signature : Signature} :
    loadProgram files path signature = .error e ↔ BadProgram files path e := by
  refine ⟨fun h => ?_, fun h => h.loadProgram signature⟩
  unfold loadProgram at h
  split at h
  · rename_i hpath
    split at h
    · rename_i hfile
      cases h
      exact .unreadableContainer hpath hfile
    · rename_i hfile
      split at h
      · cases h
      · rename_i hread
        cases h
        exact .container hpath hfile hread
  · rename_i hpath
    rw [Bool.not_eq_true] at hpath
    split at h
    · rename_i hfile
      cases h
      exact .unreadableFlat hpath hfile
    · rename_i hfile
      obtain ⟨_, hread, rfl⟩ := mapError_eq_error_iff.mp h
      rcases Container.readFlat_eq_error_iff.mp hread with ⟨hl, rfl⟩ | ⟨hl, hs, rfl⟩
      · exact .partialWord hpath hfile hl
      · exact .tooLarge hpath hfile hl hs

/-! ### Refused files -/

/-- A command refuses its files if one of the loaders fails, at whatever time and for whatever
signature. -/
theorem refused_iff (readings : Readings) (signature : Signature) :
    Refused parse files path config e ↔ loadConfig parse files config = .error e ∨
      ∃ c, loadConfig parse files config = .ok c ∧ (configuredTable readings c = .error e ∨
        ∃ t, configuredTable readings c = .ok t ∧
          loadProgram files path signature = .error e) := by
  constructor
  · intro h
    cases h with
    | config h => exact Or.inl h.loadConfig
    | binding hc h =>
      refine Or.inr ⟨_, hc.loadConfig, Or.inl ?_⟩
      have := configuredTable_eq_error_iff.mpr ⟨_, h, rfl⟩
      exact (configuredTable_parallel _ readings _).of_error this
    | program hc hgood h =>
      obtain ⟨t, ht⟩ := exists_configuredTable_iff.mpr hgood
      obtain ⟨u, hu, -⟩ := (configuredTable_parallel _ readings _).of_ok ht
      exact Or.inr ⟨_, hc.loadConfig, Or.inr ⟨u, hu, loadProgram_eq_error_iff.mpr h⟩⟩
  · rintro (h | ⟨c, hc, h | ⟨t, ht, h⟩⟩)
    · exact .config (loadConfig_eq_error_iff.mp h)
    · obtain ⟨cause, hcause, rfl⟩ := configuredTable_eq_error_iff.mp h
      exact .binding (loadConfig_eq_ok_iff.mp hc) hcause
    · exact .program (loadConfig_eq_ok_iff.mp hc) (exists_configuredTable_iff.mp ⟨t, ht⟩)
        (loadProgram_eq_error_iff.mp h)

def Error.OfFile : Error → Prop
  | .unreadableConfig .. | .invalidConfig _ | .binding _ | .unreadableContainer .. | .container ..
  | .unreadableFlat .. | .flat .. => True
  | .entrySignature _ | .unreadableContext .. | .link _ | .trapped .. => False

theorem Refused.ofFile (h : Refused parse files path config e) : e.OfFile := by
  cases h with
  | config h => cases h <;> trivial
  | binding => trivial
  | program _ _ h => cases h <;> trivial

theorem Refused.ne_link (h : Refused parse files path config e) (cause : Trap) :
    e ≠ .link cause := by
  rintro rfl
  exact h.ofFile

end Command

end Ebpf
