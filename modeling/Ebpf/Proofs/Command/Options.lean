import Ebpf.Proofs.Command.Run

/-! # Options for flat binaries

The run of a container does not depend on the options that describe a flat binary, as long as the
arity is one that a signature can have. A larger arity is refused before the program file is looked
at, so a container is refused along with it.
-/

namespace Ebpf.Command

variable {parse : String → Option Config} {files : FileStore} {readings : Readings}
  {o : RunOptions} {arity arity' : Option UInt8} {void void' : Bool}

theorem execute_of_container (hpath : isContainerPath o.path = true)
    (h : { o with arity, void : RunOptions }.ArityFits)
    (h' : { o with arity := arity', void := void' : RunOptions }.ArityFits) :
    execute parse files readings { o with arity, void } =
      execute parse files readings { o with arity := arity', void := void' } := by
  obtain ⟨signature, hs : RunOptions.signature _ = pure signature⟩ := exists_signature h
  obtain ⟨signature', hs' : RunOptions.signature _ = pure signature'⟩ := exists_signature h'
  simp only [execute, hs, hs', pure_bind,
    loadProgram_of_container hpath files signature signature']

theorem execute_of_unconfigured {e : Error}
    (h : loadConfig parse files o.config >>= configuredTable readings = .error e) :
    execute parse files readings o = .error e := by
  rcases bind_eq_error_iff.mp h with hc | ⟨c, hc, ht⟩
  · exact bind_eq_error_iff.mpr (Or.inl hc)
  · exact bind_eq_error_iff.mpr (Or.inr ⟨c, hc, bind_eq_error_iff.mpr (Or.inl ht)⟩)

/-- An arity that no signature can have is refused for any file, after the configuration. -/
theorem execute_of_beyond {arity : UInt8} (h : maxArguments < arity.toNat) (void : Bool) :
    execute parse files readings { o with arity := some arity, void } =
      (loadConfig parse files o.config >>= configuredTable readings) >>= fun _ =>
        .error (.entrySignature (.invalidArity arity.toNat)) := by
  have hs : { o with arity := some arity, void : RunOptions }.signature =
      .error (.entrySignature (.invalidArity arity.toNat)) := signature_of_beyond rfl h
  simp only [execute, hs, bind_assoc]
  rfl

theorem execute_ne_entrySignature (h : o.ArityFits) (cause : ProgramError) :
    execute parse files readings o ≠ .error (.entrySignature cause) := by
  intro hexecute
  rcases refused_or_context_of_job h (execute_eq_error_iff.mp hexecute) with hfile | hcontext
  · exact hfile.ofFile
  · unfold loadContext at hcontext
    split at hcontext
    · cases hcontext
    · split at hcontext <;> cases hcontext

/-- Options for flat binaries make a difference to a container exactly if one of the arities is
beyond the argument registers, and the configuration is good. -/
theorem execute_container (hpath : isContainerPath o.path = true)
    (parse : String → Option Config) (files : FileStore) (readings : Readings) :
    (∀ arity void arity' void', { o with arity, void : RunOptions }.ArityFits →
      { o with arity := arity', void := void' : RunOptions }.ArityFits →
      execute parse files readings { o with arity, void } =
        execute parse files readings { o with arity := arity', void := void' }) ∧
    (∀ (arity : UInt8) void, maxArguments < arity.toNat →
      execute parse files readings { o with arity := some arity, void } =
        (loadConfig parse files o.config >>= configuredTable readings) >>= fun _ =>
          .error (.entrySignature (.invalidArity arity.toNat))) ∧
    ∀ (arity : UInt8) void arity' void', maxArguments < arity.toNat →
      { o with arity := arity', void := void' : RunOptions }.ArityFits →
      (execute parse files readings { o with arity := some arity, void } =
          execute parse files readings { o with arity := arity', void := void' } ↔
        ∃ e, loadConfig parse files o.config >>= configuredTable readings = .error e) := by
  refine ⟨fun _ _ _ _ => execute_of_container hpath, fun _ void h => execute_of_beyond h void,
    fun arity void arity' void' hbeyond hfits => ?_⟩
  rw [execute_of_beyond hbeyond]
  constructor
  · intro h
    cases hconfigured : loadConfig parse files o.config >>= configuredTable readings with
    | error e => exact ⟨e, rfl⟩
    | ok table =>
      rw [hconfigured] at h
      -- What comes after the configuration does not fail for the signature.
      exact absurd h.symm (execute_ne_entrySignature hfits _)
  · rintro ⟨e, he⟩
    rw [he, execute_of_unconfigured (o := { o with arity := arity', void := void' }) he]
    rfl

theorem execute_container_twoFiles : isContainerPath "main.hbf" = true ∧
    execute Config.parse twoFiles ⟨0, 0⟩ { path := "main.hbf", arity := some 3, void := true } =
      execute Config.parse twoFiles ⟨0, 0⟩ { path := "main.hbf", arity := none, void := false } ∧
    execute Config.parse twoFiles ⟨0, 0⟩ { path := "main.hbf", arity := some 6, void := true } =
      .error (.entrySignature (.invalidArity 6)) := by
  obtain ⟨hsame, hbeyond, -⟩ := execute_container (o := { path := "main.hbf" })
    isContainerPath_hbf Config.parse twoFiles ⟨0, 0⟩
  refine ⟨isContainerPath_hbf, hsame (some 3) true none false ?_ nofun, hbeyond 6 true (by decide)⟩
  rintro arity ⟨⟩
  decide

theorem execute_container_depends :
    execute Config.parse twoFiles ⟨0, 0⟩ { path := "main.hbf" } = .ok ⟨"main", .ok (some 9)⟩ ∧
    execute Config.parse twoFiles ⟨0, 0⟩ { path := "main.hbf", arity := some 6 } =
      .error (.entrySignature (.invalidArity 6)) := by
  have hbeyond : maxArguments < (6 : UInt8).toNat := by decide
  constructor
  · exact execute_of_job (job_returning Config.parse ⟨0, 0⟩)
  · exact execute_of_beyond (o := { path := "main.hbf" }) hbeyond false

end Ebpf.Command
