/-! # Computations that can fail

What is known of the errors and of the values of a computation is carried through its steps.
-/

namespace Ebpf

variable {ε δ α β : Type} {bad : ε → Prop} {good : α → Prop}

/-- The computation fails with one of the errors in `bad`, or its value is one of those in
`good`. -/
def Ends (bad : ε → Prop) (good : α → Prop) : Except ε α → Prop
  | .ok a => good a
  | .error e => bad e

namespace Ends

theorem bind {next : β → Prop} {x : Except ε α} {f : α → Except ε β} (hx : Ends bad good x)
    (hf : ∀ a, good a → Ends bad next (f a)) : Ends bad next (x >>= f) := by
  cases x with
  | ok a => exact hf a hx
  | error e => exact hx

theorem mono {better : α → Prop} {x : Except ε α} (hx : Ends bad good x)
    (hg : ∀ a, good a → better a) : Ends bad better x := by
  cases x with
  | ok a => exact hg a hx
  | error e => exact hx

theorem guard {c : Prop} [Decidable c] {e : ε} {f : Unit → Except ε α} (he : c → bad e)
    (hf : ¬ c → Ends bad good (f ())) : Ends bad good (if c then throw e >>= f else f ()) := by
  by_cases hc : c
  · rw [if_pos hc]
    exact he hc
  · rw [if_neg hc]
    exact hf hc

theorem forM {f : α → Except ε Unit} {items : List α}
    (h : ∀ a ∈ items, Ends bad (fun _ => True) (f a)) :
    Ends bad (fun _ => True) (items.forM f) := by
  induction items with
  | nil => trivial
  | cons a items ih =>
    obtain ⟨ha, hitems⟩ := List.forall_mem_cons.mp h
    exact ha.bind fun _ _ => ih hitems

theorem of_ok {x : Except ε α} {a : α} (hx : Ends bad good x) (h : x = .ok a) : good a := by
  subst h; exact hx

theorem of_error {x : Except ε α} {e : ε} (hx : Ends bad good x) (h : x = .error e) : bad e := by
  subst h; exact hx

end Ends

theorem bind_eq_ok_iff {x : Except ε α} {f : α → Except ε β} {b : β} :
    x >>= f = .ok b ↔ ∃ a, x = .ok a ∧ f a = .ok b := by
  constructor
  · intro h
    cases x with
    | ok a => exact ⟨a, rfl, h⟩
    | error e => cases h
  · rintro ⟨a, rfl, h⟩
    exact h

theorem bind_eq_error_iff {x : Except ε α} {f : α → Except ε β} {e : ε} :
    x >>= f = .error e ↔ x = .error e ∨ ∃ a, x = .ok a ∧ f a = .error e := by
  constructor
  · intro h
    cases x with
    | ok a => exact Or.inr ⟨a, rfl, h⟩
    | error other => cases h; exact Or.inl rfl
  · rintro (rfl | ⟨a, rfl, h⟩)
    · rfl
    · exact h

theorem mapError_eq_ok_iff {g : ε → δ} {x : Except ε α} {a : α} :
    x.mapError g = .ok a ↔ x = .ok a := by
  cases x with
  | ok b => constructor <;> rintro ⟨⟩ <;> rfl
  | error e => constructor <;> rintro ⟨⟩

theorem mapError_eq_error_iff {g : ε → δ} {x : Except ε α} {d : δ} :
    x.mapError g = .error d ↔ ∃ e, x = .error e ∧ g e = d := by
  cases x with
  | ok a => exact ⟨nofun, fun ⟨_, h, _⟩ => nomatch h⟩
  | error e =>
    constructor
    · rintro ⟨⟩
      exact ⟨e, rfl, rfl⟩
    · rintro ⟨_, ⟨⟩, rfl⟩
      rfl

theorem bind_unit_eq_ok_iff {x : Except ε Unit} {f : Unit → Except ε α} {a : α} :
    x >>= f = .ok a ↔ x = .ok () ∧ f () = .ok a := by
  rw [bind_eq_ok_iff]
  exact ⟨fun ⟨(), h⟩ => h, fun h => ⟨(), h⟩⟩

theorem forM_eq_ok_iff {f : α → Except ε Unit} {items : List α} :
    items.forM f = .ok () ↔ ∀ a ∈ items, f a = .ok () := by
  induction items with
  | nil => exact ⟨fun _ => nofun, fun _ => rfl⟩
  | cons a items ih => rw [List.forM, bind_unit_eq_ok_iff, List.forall_mem_cons, ih]

theorem map_eq_map_cases {γ : Type} {f : α → γ} {x y : Except ε α} (h : x.map f = y.map f) :
    (∃ e, x = .error e ∧ y = .error e) ∨ ∃ a b, x = .ok a ∧ y = .ok b ∧ f a = f b := by
  cases x with
  | error e =>
    cases y with
    | error e' => cases h; exact Or.inl ⟨e, rfl, rfl⟩
    | ok b => cases h
  | ok a =>
    cases y with
    | error e' => cases h
    | ok b => exact Or.inr ⟨a, b, rfl, rfl, Except.ok.inj h⟩

theorem mapM_congr_unit {f g : α → Except ε β} {items : List α}
    (h : ∀ a ∈ items, (f a).map (fun _ => ()) = (g a).map fun _ => ()) :
    (items.mapM f).map (fun _ => ()) = (items.mapM g).map fun _ => () := by
  have drop (b : β) (x : Except ε (List β)) :
      (x >>= fun bs => return b :: bs).map (fun _ => ()) = x.map fun _ => () := by
    cases x <;> rfl
  induction items with
  | nil => rfl
  | cons a items ih =>
    obtain ⟨ha, hitems⟩ := List.forall_mem_cons.mp h
    rw [List.mapM_cons, List.mapM_cons]
    rcases map_eq_map_cases ha with ⟨e, hf, hg⟩ | ⟨b, b', hf, hg, -⟩
    · rw [hf, hg]
      rfl
    · rw [hf, hg]
      exact (drop b _).trans ((ih hitems).trans (drop b' _).symm)

theorem mapM_eq_ok_iff {f : α → Except ε β} {items : List α} {values : List β} :
    items.mapM f = .ok values ↔ items.map f = values.map .ok := by
  induction items generalizing values with
  | nil =>
    rw [List.mapM_nil, List.map_nil, eq_comm (a := []), List.map_eq_nil_iff]
    exact ⟨fun h => (Except.ok.inj h).symm, fun h => h ▸ rfl⟩
  | cons a items ih =>
    rw [List.mapM_cons, bind_eq_ok_iff, List.map_cons, eq_comm (a := f a :: _),
      List.map_eq_cons_iff]
    constructor
    · rintro ⟨b, hb, h⟩
      obtain ⟨bs, hbs, h⟩ := bind_eq_ok_iff.mp h
      cases h
      exact ⟨b, bs, rfl, hb.symm, (ih.mp hbs).symm⟩
    · rintro ⟨b, bs, rfl, hb, hbs⟩
      exact ⟨b, hb.symm, bind_eq_ok_iff.mpr ⟨bs, ih.mpr hbs.symm, rfl⟩⟩

theorem mem_iff_of_mapM_eq_ok {f : α → Except ε β} {items : List α} {values : List β}
    (h : items.mapM f = .ok values) (b : β) : b ∈ values ↔ ∃ a ∈ items, f a = .ok b := by
  have hok : .ok b ∈ values.map (Except.ok (ε := ε)) ↔ b ∈ values := by simp
  rw [← hok, ← mapM_eq_ok_iff.mp h, List.mem_map]

theorem mapM_eq_error_iff {f : α → Except ε β} {items : List α} {e : ε} :
    items.mapM f = .error e ↔ ∃ before a after, items = before ++ a :: after ∧
      (∀ x ∈ before, ∃ b, f x = .ok b) ∧ f a = .error e := by
  constructor
  · intro h
    induction items with
    | nil => cases h
    | cons a items ih =>
      rw [List.mapM_cons, bind_eq_error_iff] at h
      rcases h with ha | ⟨b, ha, h⟩
      · exact ⟨[], a, items, rfl, nofun, ha⟩
      · rcases bind_eq_error_iff.mp h with h | ⟨bs, -, h⟩
        · obtain ⟨before, x, after, rfl, hbefore, hx⟩ := ih h
          exact ⟨a :: before, x, after, rfl, List.forall_mem_cons.mpr ⟨⟨b, ha⟩, hbefore⟩, hx⟩
        · cases h
  · rintro ⟨before, a, after, rfl, hbefore, ha⟩
    induction before with
    | nil => rw [List.nil_append, List.mapM_cons, ha]; rfl
    | cons x before ih =>
      obtain ⟨⟨b, hb⟩, hbefore⟩ := List.forall_mem_cons.mp hbefore
      rw [List.cons_append, List.mapM_cons, hb]
      exact bind_eq_error_iff.mpr (Or.inr ⟨b, rfl, bind_eq_error_iff.mpr (Or.inl (ih hbefore))⟩)

theorem exists_mapM_eq_ok_iff {f : α → Except ε β} {items : List α} :
    (∃ values, items.mapM f = .ok values) ↔ ∀ a ∈ items, ∃ b, f a = .ok b := by
  constructor
  · rintro ⟨values, h⟩ a ha
    have hmem : f a ∈ values.map .ok := mapM_eq_ok_iff.mp h ▸ List.mem_map_of_mem ha
    obtain ⟨b, -, hb⟩ := List.mem_map.mp hmem
    exact ⟨b, hb.symm⟩
  · intro h
    cases hm : items.mapM f with
    | ok values => exact ⟨values, rfl⟩
    | error e =>
      obtain ⟨before, a, after, rfl, -, ha⟩ := mapM_eq_error_iff.mp hm
      obtain ⟨b, hb⟩ := h a (by simp)
      cases ha.symm.trans hb

/-- Going through a list with a state fails with the error of the first element that fails, in the
state that the elements before it have left. -/
theorem foldlM_eq_error_iff {f : β → α → Except ε β} {b : β} {items : List α} {e : ε} :
    items.foldlM f b = .error e ↔ ∃ before a after mid, items = before ++ a :: after ∧
      before.foldlM f b = .ok mid ∧ f mid a = .error e := by
  constructor
  · intro h
    induction items generalizing b with
    | nil => cases h
    | cons a items ih =>
      rw [List.foldlM_cons, bind_eq_error_iff] at h
      rcases h with ha | ⟨c, hc, h⟩
      · exact ⟨[], a, items, b, rfl, rfl, ha⟩
      · obtain ⟨before, x, after, mid, rfl, hmid, hx⟩ := ih h
        refine ⟨a :: before, x, after, mid, rfl, ?_, hx⟩
        rw [List.foldlM_cons, hc]
        exact hmid
  · rintro ⟨before, a, after, mid, rfl, hmid, ha⟩
    rw [List.foldlM_append, hmid]
    exact bind_eq_error_iff.mpr (Or.inr ⟨mid, rfl, bind_eq_error_iff.mpr (Or.inl ha)⟩)

theorem guard_eq_ok_iff {c : Prop} [Decidable c] {e : ε} {f : Unit → Except ε α} {a : α} :
    (if c then throw e >>= f else f ()) = .ok a ↔ ¬ c ∧ f () = .ok a := by
  by_cases hc : c
  · rw [if_pos hc]
    exact ⟨nofun, fun h => absurd hc h.1⟩
  · rw [if_neg hc]
    exact ⟨fun h => ⟨hc, h⟩, And.right⟩

/-! ### Two computations -/

/-- The computations fail with the same error, or they succeed with related values. -/
inductive Parallel (R : α → β → Prop) : Except ε α → Except ε β → Prop
  | error (e : ε) : Parallel R (.error e) (.error e)
  | ok {a : α} {b : β} (h : R a b) : Parallel R (.ok a) (.ok b)

namespace Parallel

variable {γ κ : Type} {R : α → β → Prop} {x : Except ε α} {y : Except ε β}

theorem bind {S : γ → κ → Prop} {f : α → Except ε γ} {g : β → Except ε κ} (h : Parallel R x y)
    (hf : ∀ a b, R a b → Parallel S (f a) (g b)) : Parallel S (x >>= f) (y >>= g) := by
  cases h with
  | error e => exact .error e
  | ok h => exact hf _ _ h

theorem mapError (h : Parallel R x y) (g : ε → δ) : Parallel R (x.mapError g) (y.mapError g) := by
  cases h with
  | error e => exact .error (g e)
  | ok h => exact .ok h

theorem of_error {e : ε} (h : Parallel R x y) (hx : x = .error e) : y = .error e := by
  cases h with
  | error e' => cases hx; rfl
  | ok h => cases hx

theorem of_ok {a : α} (h : Parallel R x y) (hx : x = .ok a) : ∃ b, y = .ok b ∧ R a b := by
  cases h with
  | error e => cases hx
  | ok h => cases hx; exact ⟨_, rfl, h⟩

theorem refl {R : α → α → Prop} (hR : ∀ a, R a a) (x : Except ε α) : Parallel R x x := by
  cases x with
  | error e => exact .error e
  | ok a => exact .ok (hR a)

theorem eq {x y : Except ε α} (h : Parallel Eq x y) : x = y := by
  cases h with
  | error e => rfl
  | ok h => rw [h]

theorem foldlM {f : α → γ → Except ε α} {g : β → γ → Except ε β}
    (hf : ∀ a b c, R a b → Parallel R (f a c) (g b c)) {a : α} {b : β} (h : R a b)
    (items : List γ) : Parallel R (items.foldlM f a) (items.foldlM g b) := by
  induction items generalizing a b with
  | nil => exact .ok h
  | cons c items ih =>
    rw [List.foldlM_cons, List.foldlM_cons]
    exact (hf a b c h).bind fun _ _ => ih

end Parallel

end Ebpf
