import Ebpf.Command.Inspect
import Ebpf.Command.Run
import Ebpf.Proofs.Command.Load
import Ebpf.Proofs.Invoke

/-! # Running and verifying a program file

Verifying a file gives what linking gives for the program that a run invokes. So both commands fail
over the same files in the same way, a program that is not verified is not interpreted, and one
that is verified is.
-/

namespace Ebpf

/-! ### Invoking what has been linked -/

namespace Invocation

variable {program : Program} {table : HelperTable} {settings : Settings} {args : List UInt64}

theorem invoke_of_unlinked {cause : Trap} (h : link program table = .error cause)
    (hargs : ∀ entry, program.entry = .ok entry → entry.signature.arity ≤ args.length)
    (hcontext : settings.context.size ≤ maxContext) :
    invoke program args table settings = .error cause ∧
      helperCalls program args table settings = [] := by
  cases hhead : program.functions.head? with
  | none =>
    have hcause : cause = .noEntryPoint := by
      rw [link, Program.entry, hhead] at h
      exact (Except.error.inj h).symm
    have hanswer := (Answers.noEntryPoint (List.head?_eq_none_iff.mp hhead)
      : Answers program table settings args _ _).eq
    rw [hcause]
    exact ⟨hanswer.1.symm, hanswer.2.symm⟩
  | some entry =>
    have hlen := hargs entry (entry_of_head? hhead)
    -- Only a missing argument or too large a context would be noticed before the link.
    have hanswer := (Answers.unlinked hhead hlen hcontext h).eq
    exact ⟨hanswer.1.symm, hanswer.2.symm⟩

theorem invoke_of_linked {report : LinkReport} (h : link program table = .ok report)
    (hargs : ∀ entry, program.entry = .ok entry → entry.signature.arity ≤ args.length)
    (hcontext : settings.context.size ≤ maxContext) :
    ∃ entry inv m s, program.entry = .ok entry ∧ entry.name = report.entry ∧
      (new program table settings).bind args = (.ok (), inv) ∧
      inv.prepared = some (m, s) ∧ invoke program args table settings =
        (m.run s).1.map fun r0 => if m.entry.signature.returns then some r0 else none := by
  cases hentry : program.entry with
  | error cause =>
    rw [link, hentry] at h
    cases h
  | ok entry =>
    obtain ⟨calls, -, rfl⟩ := (link_eq_ok_iff_of_entry hentry).mp h
    obtain ⟨s, hs, -⟩ := exists_enter entry.signature.arity_le (hargs entry hentry) hcontext
    have hbind : (new program table settings).bind args = _ := bind_new_of_entry hentry
    rw [if_neg (Nat.not_lt.mpr (hargs entry hentry)), hs] at hbind
    refine ⟨entry, _, _, s, rfl, rfl, hbind, rfl, ?_⟩
    rw [invoke, hbind]
    dsimp only
    rw [run_of_prepared rfl rfl]
    dsimp only [new]
    rw [h]
    rfl

end Invocation

namespace Command

open Assembly Bytes Container Invocation

/-- What a run invokes. -/
structure Job where
  program : Program
  table : HelperTable
  settings : Settings

def job (parse : String → Option Config) (files : FileStore) (readings : Readings)
    (o : RunOptions) : Except Error Job := do
  let config ← loadConfig parse files o.config
  let table ← configuredTable readings config
  let signature ← o.signature
  let program ← loadProgram files o.path signature
  let context ← loadContext files o.data
  return { program, table, settings := { config.settings with context } }

def Job.report (j : Job) (args : List UInt64) : RunReport :=
  { entry := entryName j.program, outcome := invoke j.program args j.table j.settings }

/-- Links the program at `path`, which has the given signature if it is a flat binary. -/
def verifyAs (signature : Signature) (parse : String → Option Config) (files : FileStore)
    (readings : Readings) (path : String) (config : Option String) : Except Error LinkReport := do
  let config ← loadConfig parse files config
  let table ← configuredTable readings config
  let program ← loadProgram files path signature
  (link program table).mapError .link

/-- The arity that is asked for, if any, is one that a signature can have. -/
def RunOptions.ArityFits (o : RunOptions) : Prop :=
  ∀ arity, o.arity = some arity → arity.toNat ≤ maxArguments

def RunOptions.ContextFits (o : RunOptions) (files : FileStore) : Prop :=
  ∀ path, o.data = some path → ∃ bytes, files path = .ok bytes ∧ bytes.length ≤ maxContext

variable {parse : String → Option Config} {files : FileStore} {readings readings' : Readings}
  {o : RunOptions} {j : Job} {signature : Signature} {context : Array UInt8} {e : Error}

/-! ### Options -/

theorem exists_signature (h : o.ArityFits) : ∃ signature, o.signature = .ok signature := by
  obtain ⟨arity, hle, harity⟩ : ∃ arity, arity ≤ maxArguments ∧ o.signature =
      (Signature.ofArity arity (!o.void)).mapError .entrySignature := by
    unfold RunOptions.signature
    cases ha : o.arity with
    | none => exact ⟨_, Nat.min_le_right _ _, rfl⟩
    | some arity => exact ⟨_, h arity ha, rfl⟩
  have hok : Signature.ofArity arity (!o.void) = .ok ⟨arity, !o.void, hle⟩ :=
    Container.Reader.ofArity_eq_ok_iff.mpr ⟨rfl, rfl⟩
  exact ⟨_, by rw [harity, hok]; rfl⟩

theorem exists_context (h : o.ContextFits files) :
    ∃ context, loadContext files o.data = .ok context ∧ context.size ≤ maxContext := by
  cases hd : o.data with
  | none => exact ⟨#[], rfl, Nat.zero_le _⟩
  | some path =>
    obtain ⟨bytes, hbytes, hle⟩ := h path hd
    exact ⟨bytes.toArray, by rw [loadContext, hbytes], hle⟩

theorem signature_of_beyond {arity : UInt8} (ha : o.arity = some arity)
    (h : maxArguments < arity.toNat) :
    o.signature = .error (.entrySignature (.invalidArity arity.toNat)) := by
  have hnone : Signature.ofArity? arity.toNat (!o.void) = none := dif_neg (Nat.not_le.mpr h)
  rw [RunOptions.signature, ha, Signature.ofArity, hnone]
  rfl

/-! ### Jobs -/

theorem execute_eq (parse : String → Option Config) (files : FileStore) (readings : Readings)
    (o : RunOptions) : execute parse files readings o = do
      let j ← job parse files readings o
      return j.report o.args := by
  simp only [execute, job, bind_assoc, pure_bind]
  rfl

theorem job_of_ok {c : Config} {t : HelperTable} {p : Program}
    (hc : loadConfig parse files o.config = .ok c) (ht : configuredTable readings c = .ok t)
    (hs : o.signature = .ok signature) (hp : loadProgram files o.path signature = .ok p)
    (hcontext : loadContext files o.data = .ok context) :
    job parse files readings o = .ok ⟨p, t, { c.settings with context }⟩ := by
  refine bind_eq_ok_iff.mpr ⟨c, hc, bind_eq_ok_iff.mpr ⟨t, ht, bind_eq_ok_iff.mpr ⟨_, hs, ?_⟩⟩⟩
  exact bind_eq_ok_iff.mpr ⟨p, hp, bind_eq_ok_iff.mpr ⟨context, hcontext, rfl⟩⟩

theorem context_le_of_job (hcontext : o.ContextFits files)
    (h : job parse files readings o = .ok j) : j.settings.context.size ≤ maxContext := by
  obtain ⟨context, hc, hle⟩ := exists_context hcontext
  unfold job at h
  obtain ⟨_, -, h⟩ := bind_eq_ok_iff.mp h
  obtain ⟨_, -, h⟩ := bind_eq_ok_iff.mp h
  obtain ⟨_, -, h⟩ := bind_eq_ok_iff.mp h
  obtain ⟨_, -, h⟩ := bind_eq_ok_iff.mp h
  obtain ⟨_, hc', h⟩ := bind_eq_ok_iff.mp h
  cases hc.symm.trans hc'
  cases h
  exact hle

theorem refused_or_context_of_job (harity : o.ArityFits)
    (h : job parse files readings o = .error e) :
    Refused parse files o.path o.config e ∨ loadContext files o.data = .error e := by
  obtain ⟨signature, hs⟩ := exists_signature harity
  rw [refused_iff readings signature]
  unfold job at h
  rcases bind_eq_error_iff.mp h with h | ⟨c, hc, h⟩
  · exact Or.inl (Or.inl h)
  rcases bind_eq_error_iff.mp h with h | ⟨t, ht, h⟩
  · exact Or.inl (Or.inr ⟨c, hc, Or.inl h⟩)
  rcases bind_eq_error_iff.mp h with h | ⟨signature', hs', h⟩
  · cases hs.symm.trans h
  cases hs.symm.trans hs'
  rcases bind_eq_error_iff.mp h with h | ⟨p, -, h⟩
  · exact Or.inl (Or.inr ⟨c, hc, Or.inr ⟨t, ht, h⟩⟩)
  rcases bind_eq_error_iff.mp h with h | ⟨context, -, h⟩
  · exact Or.inr h
  · cases h

theorem refused_of_job (harity : o.ArityFits) (hcontext : o.ContextFits files)
    (h : job parse files readings o = .error e) : Refused parse files o.path o.config e := by
  obtain ⟨context, hc, -⟩ := exists_context hcontext
  refine (refused_or_context_of_job harity h).resolve_right fun h => ?_
  cases hc.symm.trans h

theorem execute_eq_error_iff : execute parse files readings o = .error e ↔
    job parse files readings o = .error e := by
  rw [execute_eq, bind_eq_error_iff]
  exact or_iff_left fun ⟨j, _, h⟩ => nomatch h

theorem execute_of_job (h : job parse files readings o = .ok j) :
    execute parse files readings o = .ok (j.report o.args) := by
  rw [execute_eq, h]
  rfl

/-! ### Verifying -/

theorem verifyAs_eq (signature signature' : Signature) (parse : String → Option Config)
    (files : FileStore) (readings readings' : Readings) (path : String) (config : Option String) :
    verifyAs signature parse files readings path config =
      verifyAs signature' parse files readings' path config := by
  refine Parallel.eq (Parallel.bind (.refl (fun _ => rfl) (loadConfig parse files config)) ?_)
  rintro c _ rfl
  refine (configuredTable_parallel readings readings' c).bind fun t u ht => ?_
  refine (loadProgram_parallel files path signature signature').bind fun p q hp => ?_
  rw [link_eq_of_outline hp ht]
  exact .refl (fun _ => rfl) _

theorem verify_eq (harity : o.ArityFits) (hcontext : o.ContextFits files)
    (readings readings' : Readings) : verify parse files readings' o.path o.config =
      job parse files readings o >>= fun j => (link j.program j.table).mapError .link := by
  obtain ⟨signature, hs⟩ := exists_signature harity
  obtain ⟨context, hc, -⟩ := exists_context hcontext
  -- Linking does not see the signature that the options give a flat binary, so verifying may
  -- use it.
  have h : verify parse files readings' o.path o.config =
      verifyAs signature parse files readings o.path o.config :=
    verifyAs_eq plainSignature signature parse files readings' readings o.path o.config
  rw [h]
  simp only [verifyAs, job, hs, hc, bind_assoc, pure_bind]
  rfl

theorem verifyAs_of_refused {path : String} {config : Option String}
    (h : Refused parse files path config e) (signature : Signature) (readings : Readings) :
    verifyAs signature parse files readings path config = .error e := by
  rcases (refused_iff readings signature).mp h with h | ⟨c, hc, h⟩
  · exact bind_eq_error_iff.mpr (Or.inl h)
  refine bind_eq_error_iff.mpr (Or.inr ⟨c, hc, bind_eq_error_iff.mpr ?_⟩)
  rcases h with h | ⟨t, ht, h⟩
  · exact Or.inl h
  · exact Or.inr ⟨t, ht, bind_eq_error_iff.mpr (Or.inl h)⟩

/-! ### Both commands -/

theorem refused_iff_execute (harity : o.ArityFits) (hcontext : o.ContextFits files)
    (readings : Readings) :
    Refused parse files o.path o.config e ↔ execute parse files readings o = .error e := by
  rw [execute_eq_error_iff]
  refine ⟨fun h => ?_, refused_of_job harity hcontext⟩
  have hverify : verify parse files readings o.path o.config = .error e :=
    verifyAs_of_refused h plainSignature readings
  rw [verify_eq harity hcontext readings readings] at hverify
  refine (bind_eq_error_iff.mp hverify).resolve_right ?_
  rintro ⟨j, -, hlink⟩
  obtain ⟨cause, -, hcause⟩ := mapError_eq_error_iff.mp hlink
  exact h.ne_link cause hcause.symm

theorem refused_iff_verify (harity : o.ArityFits) (hcontext : o.ContextFits files)
    (readings : Readings) : Refused parse files o.path o.config e ↔
      verify parse files readings o.path o.config = .error e ∧ ∀ cause, e ≠ .link cause := by
  refine ⟨fun h => ⟨verifyAs_of_refused h plainSignature readings, h.ne_link⟩, ?_⟩
  rintro ⟨h, hne⟩
  rw [verify_eq harity hcontext readings readings] at h
  rcases bind_eq_error_iff.mp h with h | ⟨j, -, hlink⟩
  · exact refused_of_job harity hcontext h
  · obtain ⟨cause, -, hcause⟩ := mapError_eq_error_iff.mp hlink
    exact absurd hcause.symm (hne cause)

theorem verify_eq_link_iff (harity : o.ArityFits) (hcontext : o.ContextFits files)
    (readings readings' : Readings) {cause : Trap} :
    verify parse files readings' o.path o.config = .error (.link cause) ↔
      ∃ j, job parse files readings o = .ok j ∧ link j.program j.table = .error cause := by
  rw [verify_eq harity hcontext readings readings', bind_eq_error_iff]
  constructor
  · rintro (h | ⟨j, hj, h⟩)
    · exact absurd rfl ((refused_of_job harity hcontext h).ne_link cause)
    · obtain ⟨_, hlink, ⟨⟩⟩ := mapError_eq_error_iff.mp h
      exact ⟨j, hj, hlink⟩
  · rintro ⟨j, hj, hlink⟩
    exact Or.inr ⟨j, hj, mapError_eq_error_iff.mpr ⟨cause, hlink, rfl⟩⟩

theorem verify_eq_ok_iff (harity : o.ArityFits) (hcontext : o.ContextFits files)
    (readings readings' : Readings) {linked : LinkReport} :
    verify parse files readings' o.path o.config = .ok linked ↔
      ∃ j, job parse files readings o = .ok j ∧ link j.program j.table = .ok linked := by
  rw [verify_eq harity hcontext readings readings', bind_eq_ok_iff]
  simp only [mapError_eq_ok_iff]

/-- Verifying fails as running does, predicts every trap that linking gives a run, and has a program
interpreted exactly if it is linked. -/
theorem execute_agrees_with_verify (harity : o.ArityFits) (hcontext : o.ContextFits files)
    (hargs : ∀ j entry, job parse files readings o = .ok j → j.program.entry = .ok entry →
      entry.signature.arity ≤ o.args.length) (readings' : Readings) :
    (∀ e, Refused parse files o.path o.config e ↔ execute parse files readings o = .error e) ∧
    (∀ e, Refused parse files o.path o.config e ↔
      verify parse files readings' o.path o.config = .error e ∧ ∀ cause, e ≠ .link cause) ∧
    (∀ cause, verify parse files readings' o.path o.config = .error (.link cause) →
      (Error.link cause).message = "Link failed: " ++ cause.message ∧
      ∃ j, job parse files readings o = .ok j ∧
        execute parse files readings o = .ok (j.report o.args) ∧
        (j.report o.args).status = "trapped" ∧ (j.report o.args).value? = none ∧
        (j.report o.args).trap? = some cause ∧
        helperCalls j.program o.args j.table j.settings = []) ∧
    (∀ linked, verify parse files readings' o.path o.config = .ok linked →
      ∃ j inv m s, job parse files readings o = .ok j ∧
        (new j.program j.table j.settings).bind o.args = (.ok (), inv) ∧
        inv.prepared = some (m, s) ∧ execute parse files readings o = .ok
          { entry := linked.entry
            outcome := (m.run s).1.map fun r0 =>
              if m.entry.signature.returns then some r0 else none }) ∧
    ∀ signature, verifyAs signature parse files readings' o.path o.config =
      verify parse files readings' o.path o.config := by
  refine ⟨fun e => refused_iff_execute harity hcontext readings,
    fun e => refused_iff_verify harity hcontext readings', fun cause h => ?_, fun linked h => ?_,
    fun signature => verifyAs_eq _ _ _ _ _ _ _ _⟩
  · obtain ⟨j, hj, hlink⟩ := (verify_eq_link_iff harity hcontext readings readings').mp h
    obtain ⟨houtcome, hcalls⟩ :=
      invoke_of_unlinked hlink (fun entry => hargs j entry hj) (context_le_of_job hcontext hj)
    have hreport : (j.report o.args).outcome = .error cause := houtcome
    refine ⟨?_, j, hj, execute_of_job hj, ?_, ?_, ?_, hcalls⟩
    · rw [Error.message, Error.chain]
      rfl
    · rw [RunReport.status, hreport]
    · rw [RunReport.value?, hreport]
    · rw [RunReport.trap?, hreport]
  · obtain ⟨j, hj, hlink⟩ := (verify_eq_ok_iff harity hcontext readings readings').mp h
    obtain ⟨entry, inv, m, s, hentry, hname, hbind, hprepared, houtcome⟩ :=
      invoke_of_linked hlink (fun entry => hargs j entry hj) (context_le_of_job hcontext hj)
    refine ⟨j, inv, m, s, hj, hbind, hprepared, ?_⟩
    rw [execute_of_job hj, Job.report, entryName, hentry, houtcome, ← hname]

def calling : Program where
  functions := [⟨"entry", .constant, #[call 300, exit]⟩]
  imports := .empty
  size_le := by decide

def returning : Program where
  functions := [⟨"main", .constant, nine.toArray⟩]
  imports := .empty
  size_le := by decide

/-- A flat binary of the one program and a container of the other. -/
def twoFiles : FileStore := fun path =>
  if path = "main.bin" then .ok (ofWords [call 300, exit])
  else if path = "main.hbf" then .ok (layoutOf returning).bytes
  else .error .notFound

/-- The same path with a part of a word, and a configuration that is none. -/
def spoiltFiles : FileStore := fun path =>
  if path = "main.bin" then .ok [0x95, 0, 0]
  else if path = "main.toml" then .ok (ofString "defaults = maybe")
  else .error .notFound

variable (parse : String → Option Config) (readings : Readings)

theorem isContainerPath_bin : isContainerPath "main.bin" = false := by decide +kernel

theorem isContainerPath_hbf : isContainerPath "main.hbf" = true := by decide +kernel

theorem loadProgram_calling : loadProgram twoFiles "main.bin" .constant = .ok calling := by
  rw [loadProgram, isContainerPath_bin]
  rfl

theorem loadProgram_returning (signature : Signature) :
    loadProgram twoFiles "main.hbf" signature = .ok returning := by
  have hsingle : Program.single ⟨"main", .constant, nine.toArray⟩ = .ok returning := rfl
  have hread := (write_of_single hsingle (by decide)).2
  have hfile : twoFiles "main.hbf" = .ok (layoutOf returning).bytes := rfl
  rw [loadProgram, if_pos isContainerPath_hbf, hfile]
  dsimp only
  rw [hread]

theorem job_calling : job parse twoFiles readings { path := "main.bin" } =
    .ok ⟨calling, .withDefaults readings, {}⟩ :=
  job_of_ok (c := {}) rfl rfl rfl loadProgram_calling rfl

theorem job_returning : job parse twoFiles readings { path := "main.hbf" } =
    .ok ⟨returning, .withDefaults readings, {}⟩ :=
  job_of_ok (c := {}) rfl rfl rfl (loadProgram_returning _) rfl

theorem refused_spoiltProgram : Refused parse spoiltFiles "main.bin" none
    (.flat "main.bin" (.partialWord 3)) := by
  have hbad : BadProgram spoiltFiles "main.bin" (.flat "main.bin" (.partialWord 3)) :=
    @BadProgram.partialWord _ _ [0x95, 0, 0] isContainerPath_bin rfl (by decide)
  exact @Refused.program _ _ _ _ ⟨0, 0⟩ _ _ .default nofun hbad

theorem refused_spoiltConfig : Refused Config.parse spoiltFiles "main.bin" (some "main.toml")
    (.invalidConfig "main.toml") := by
  have hparse : (Config.parse "defaults = maybe").isNone = true := by decide +kernel
  exact .config (.invalid rfl (Option.isNone_iff_eq_none.mp hparse))

theorem execute_agrees_with_verify_twoFiles :
    (∃ report, verify Config.parse twoFiles ⟨1, 1⟩ "main.bin" none =
        .error (.link (.unknownHelper 300)) ∧
      execute Config.parse twoFiles ⟨0, 0⟩ { path := "main.bin" } = .ok report ∧
      report.status = "trapped" ∧ report.trap? = some (.unknownHelper 300)) ∧
    (∃ (m : Machine) (s : State),
      verify Config.parse twoFiles ⟨1, 1⟩ "main.hbf" none = .ok ⟨"main", [], []⟩ ∧
      execute Config.parse twoFiles ⟨0, 0⟩ { path := "main.hbf" } = .ok
        { entry := "main"
          outcome := (m.run s).1.map fun r0 =>
            if m.entry.signature.returns then some r0 else none }) ∧
    (verify Config.parse spoiltFiles ⟨1, 1⟩ "main.bin" none =
        .error (.flat "main.bin" (.partialWord 3)) ∧
      execute Config.parse spoiltFiles ⟨0, 0⟩ { path := "main.bin" } =
        .error (.flat "main.bin" (.partialWord 3))) ∧
    verify Config.parse spoiltFiles ⟨1, 1⟩ "main.bin" (some "main.toml") =
        .error (.invalidConfig "main.toml") ∧
      execute Config.parse spoiltFiles ⟨0, 0⟩ { path := "main.bin", config := some "main.toml" } =
        .error (.invalidConfig "main.toml") := by
  have hcalling := job_calling Config.parse ⟨0, 0⟩
  have hreturning := job_returning Config.parse ⟨0, 0⟩
  have hunbound : verify Config.parse twoFiles ⟨1, 1⟩ "main.bin" none =
      .error (.link (.unknownHelper 300)) := by
    rw [verify_eq (o := { path := "main.bin" }) nofun nofun ⟨0, 0⟩ ⟨1, 1⟩, hcalling]
    rfl
  have hlinked : verify Config.parse twoFiles ⟨1, 1⟩ "main.hbf" none =
      .ok ⟨"main", [], []⟩ := by
    rw [verify_eq (o := { path := "main.hbf" }) nofun nofun ⟨0, 0⟩ ⟨1, 1⟩, hreturning]
    rfl
  -- No program is loaded from a refused file, so none has an entry point.
  have hnoEntry {o : RunOptions} {e : Error} (harity : o.ArityFits)
      (hcontext : o.ContextFits spoiltFiles)
      (h : Refused Config.parse spoiltFiles o.path o.config e) (j : Job) (entry : Function)
      (hj : job Config.parse spoiltFiles ⟨0, 0⟩ o = .ok j) (_ : j.program.entry = .ok entry) :
      entry.signature.arity ≤ o.args.length := by
    have hrefused := (refused_iff_execute harity hcontext ⟨0, 0⟩).mp h
    cases hj.symm.trans (execute_eq_error_iff.mp hrefused)
  obtain ⟨-, -, htrapped, -⟩ := execute_agrees_with_verify (o := { path := "main.bin" }) nofun nofun
    (fun j entry hj hentry => by
      cases hcalling.symm.trans hj
      cases hentry
      exact Nat.zero_le _) ⟨1, 1⟩
  obtain ⟨-, -, -, hrun, -⟩ := execute_agrees_with_verify (o := { path := "main.hbf" }) nofun nofun
    (fun j entry hj hentry => by
      cases hreturning.symm.trans hj
      cases hentry
      exact Nat.zero_le _) ⟨1, 1⟩
  have hprogram := refused_spoiltProgram Config.parse
  have hconfig := refused_spoiltConfig
  obtain ⟨hexecute, hverify, -⟩ := execute_agrees_with_verify (o := { path := "main.bin" }) nofun
    nofun (hnoEntry nofun nofun hprogram) ⟨1, 1⟩
  obtain ⟨hexecute', hverify', -⟩ := execute_agrees_with_verify
    (o := { path := "main.bin", config := some "main.toml" }) nofun nofun
    (hnoEntry nofun nofun hconfig) ⟨1, 1⟩
  obtain ⟨-, j, -, hj, hstatus, -, htrap, -⟩ := htrapped _ hunbound
  obtain ⟨-, -, m, s, -, -, -, hinterpreted⟩ := hrun _ hlinked
  exact ⟨⟨_, hunbound, hj, hstatus, htrap⟩, ⟨m, s, hlinked, hinterpreted⟩,
    ⟨((hverify _).mp hprogram).1, (hexecute _).mp hprogram⟩,
    ((hverify' _).mp hconfig).1, (hexecute' _).mp hconfig⟩

end Command

end Ebpf
