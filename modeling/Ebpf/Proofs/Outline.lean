import Ebpf.Config
import Ebpf.Proofs.HelperTable
import Ebpf.Proofs.Link

/-! # What linking sees

Of a program, linking sees the names and the code of the functions and the declared signatures, and
of a helper its name and its signature. So the signature of the entry point makes no difference, nor
does what a helper answers when it is called.
-/

namespace Ebpf

/-- The programs differ in the signatures of their functions and in the names of their declarations,
at most. -/
structure Program.SameOutline (p q : Program) : Prop where
  functions : p.functions.map (fun f => (f.name, f.code)) =
    q.functions.map fun f => (f.name, f.code)
  declared : ∀ id, p.declaredSignature id = q.declaredSignature id

def Helper.face (h : Helper) : String × Signature := (h.name, h.signature)

/-- The tables bind the same identifiers, to helpers that differ in what they answer, at most. -/
def HelperTable.SameFaces (t u : HelperTable) : Prop :=
  ∀ id, (t.get? id).map Helper.face = (u.get? id).map Helper.face

variable {p q : Program} {t u : HelperTable} {readings readings' : Readings}

theorem Program.SameOutline.refl (p : Program) : p.SameOutline p := ⟨rfl, fun _ => rfl⟩

/-! ### Linking -/

theorem CallSite.link_eq_of_outline {site : CallSite} (h : p.SameOutline q) (ht : t.SameFaces u) :
    site.link p t = site.link q u := by
  have hid := ht site.id
  rw [CallSite.link, CallSite.link, h.declared]
  cases hhelper : t.get? site.id with
  | none =>
    rw [hhelper, eq_comm, Option.map_none, Option.map_eq_none_iff] at hid
    rw [hid]
  | some helper =>
    rw [hhelper, eq_comm, Option.map_some, Option.map_eq_some_iff] at hid
    obtain ⟨other, hother, hface⟩ := hid
    obtain ⟨hname, hsignature⟩ := Prod.mk.inj hface
    rw [hother]
    dsimp only
    rw [hname, hsignature]

theorem link_eq_of_outline (h : p.SameOutline q) (ht : t.SameFaces u) : link p t = link q u := by
  have hsite : CallSite.link p t = CallSite.link q u :=
    funext fun site => CallSite.link_eq_of_outline h ht
  have hfunctions := h.functions
  cases hp : p.functions with
  | nil =>
    rw [hp, List.map_nil, eq_comm, List.map_eq_nil_iff] at hfunctions
    rw [link, link, Program.entry, Program.entry, hp, hfunctions]
    rfl
  | cons f rest =>
    rw [hp, List.map_cons, eq_comm, List.map_eq_cons_iff] at hfunctions
    obtain ⟨g, others, hq, hg, hrest⟩ := hfunctions
    obtain ⟨hname, hcode⟩ := Prod.mk.inj hg
    have hsites : f.callSites = g.callSites := by
      rw [Function.callSites, Function.callSites, hcode]
    have hunreachable : p.unreachable.map (·.name) = q.unreachable.map (·.name) := by
      have hnames := congrArg (List.map Prod.fst) hrest
      rw [List.map_map, List.map_map] at hnames
      rw [Program.unreachable, Program.unreachable, hp, hq]
      exact hnames.symm
    rw [link_of_entry (entry_of_functions hp), link_of_entry (entry_of_functions hq), hsite, hsites,
      hunreachable, hname]

/-! ### Tables of the catalog -/

theorem Routine.face_named? (readings readings' : Readings) (name : String) :
    (named? readings name).map Helper.face = (named? readings' name).map Helper.face := by
  have hface (r : Readings) : (named? r name).map Helper.face =
      (((catalog r).map fun x => (x.name, x.signature)).find? (·.1 == name)) := by
    rw [named?, Option.map_map, List.find?_map]
    rfl
  rw [hface, hface]
  rfl

theorem Routine.face_wellKnown? (readings readings' : Readings) (id : UInt32) :
    (wellKnown? readings id).map Helper.face = (wellKnown? readings' id).map Helper.face := by
  have hface (r : Readings) : (wellKnown? r id).map Helper.face =
      IdMap.first? ((wellKnownHelpers r).map fun b => (b.1, b.2.face)) id := by
    rw [wellKnown?, IdMap.first?, IdMap.first?, Option.map_map, List.find?_map, Option.map_map]
    rfl
  rw [hface, hface]
  rfl

namespace HelperTable

theorem SameFaces.refl (t : HelperTable) : t.SameFaces t := fun _ => rfl

theorem SameFaces.insert {h k : Helper} (ht : t.SameFaces u) (hface : h.face = k.face)
    (id : UInt32) : SameFaces (IdMap.insert t id h) (IdMap.insert u id k) := by
  intro key
  rw [IdMap.get?_insert, IdMap.get?_insert]
  split
  · exact congrArg some hface
  · exact ht key

theorem sameFaces_withDefaults (readings readings' : Readings) :
    (withDefaults readings).SameFaces (withDefaults readings') := by
  intro id
  rw [withDefaults, withDefaults, get?_bootstrap, get?_bootstrap, IdMap.get?_empty, Option.or_none,
    Option.or_none]
  exact Routine.face_wellKnown? readings readings' id

theorem registerRoutine_parallel (ht : t.SameFaces u) (id : UInt32) (routine : String) :
    Parallel (fun _ _ => True) (t.registerRoutine readings id routine).1
        (u.registerRoutine readings' id routine).1 ∧
      (t.registerRoutine readings id routine).2.SameFaces
        (u.registerRoutine readings' id routine).2 := by
  have hname := Routine.face_named? readings readings' routine
  unfold registerRoutine
  cases hhelper : Routine.named? readings routine with
  | none =>
    rw [hhelper, eq_comm, Option.map_none, Option.map_eq_none_iff] at hname
    rw [hname]
    exact ⟨.error _, ht⟩
  | some helper =>
    rw [hhelper, eq_comm, Option.map_some, Option.map_eq_some_iff] at hname
    obtain ⟨other, hother, hface⟩ := hname
    rw [hother]
    dsimp only [register]
    split
    · exact ⟨.error _, ht⟩
    · exact ⟨.ok trivial, ht.insert hface.symm id⟩

end HelperTable

/-- A configuration describes the same table at any time, but for the answers of the helpers. -/
theorem Config.helperTable_parallel (readings readings' : Readings) (c : Config) :
    Parallel HelperTable.SameFaces (c.helperTable readings) (c.helperTable readings') := by
  refine Parallel.foldlM (fun t u b ht => ?_) ?_ c.bindings
  · obtain ⟨hresult, hleft⟩ :=
      @HelperTable.registerRoutine_parallel t u readings readings' ht b.id b.routine
    generalize t.registerRoutine readings b.id b.routine = x at hresult hleft ⊢
    generalize u.registerRoutine readings' b.id b.routine = y at hresult hleft ⊢
    obtain ⟨x, left⟩ := x
    obtain ⟨y, left'⟩ := y
    cases hresult with
    | error cause => exact .error _
    | ok => exact .ok hleft
  · split
    · exact HelperTable.sameFaces_withDefaults readings readings'
    · exact HelperTable.SameFaces.refl _

end Ebpf
