import Ebpf.Text.Blank

/-! # Trimmed texts

Trimming takes all white space from both ends of a text and nothing else, so white space that is put
around a text without such ends is taken away again.
-/

namespace Ebpf.Text

/-- The characters `t` are those of `cs` without the white space at both ends. -/
structure Trims (cs t : List Char) : Prop where
  around : ∃ before after, cs = before ++ t ++ after ∧
    (∀ c ∈ before, isBlank c = true) ∧ ∀ c ∈ after, isBlank c = true
  head : ∀ c ∈ t.head?, isBlank c = false
  last : ∀ c ∈ t.getLast?, isBlank c = false

variable {cs t : List Char}

theorem dropWhile_append_of_blank {before : List Char} (h : ∀ c ∈ before, isBlank c = true)
    (cs : List Char) : (before ++ cs).dropWhile isBlank = cs.dropWhile isBlank := by
  induction before with
  | nil => rfl
  | cons c before ih =>
    obtain ⟨hc, h⟩ := List.forall_mem_cons.mp h
    rw [List.cons_append, List.dropWhile_cons_of_pos hc, ih h]

theorem dropWhile_eq_self (h : ∀ c ∈ cs.head?, isBlank c = false) : cs.dropWhile isBlank = cs := by
  cases cs with
  | nil => rfl
  | cons c cs => exact List.dropWhile_cons_of_neg (by rw [h c rfl]; decide)

theorem isBlank_of_head?_dropWhile {c : Char} (h : c ∈ (cs.dropWhile isBlank).head?) :
    isBlank c = false := by
  have hnot := List.head?_dropWhile_not isBlank cs
  rw [Option.mem_def.mp h] at hnot
  exact hnot

theorem isBlank_of_mem_takeWhile {c : Char} (h : c ∈ cs.takeWhile isBlank) : isBlank c = true :=
  List.all_eq_true.mp List.all_takeWhile c h

theorem Trims.trim_eq (h : Trims cs t) : trim cs = t := by
  obtain ⟨⟨before, after, rfl, hbefore, hafter⟩, hhead, hlast⟩ := h
  rw [trim, List.append_assoc, dropWhile_append_of_blank hbefore]
  cases t with
  | nil =>
    have hgone : after.dropWhile isBlank = [] := by
      rw [← List.append_nil after, dropWhile_append_of_blank hafter, List.dropWhile_nil]
    rw [List.nil_append, hgone]
    rfl
  | cons c t =>
    have hkept : (c :: t ++ after).dropWhile isBlank = c :: t ++ after := dropWhile_eq_self hhead
    have hend : (c :: t).reverse.dropWhile isBlank = (c :: t).reverse :=
      dropWhile_eq_self (by rwa [List.head?_reverse])
    have hafter : ∀ c ∈ after.reverse, isBlank c = true := by simpa using hafter
    rw [hkept, List.reverse_append, dropWhile_append_of_blank hafter, hend, List.reverse_reverse]

theorem trims_trim (cs : List Char) : Trims cs (trim cs) := by
  have hsplit : cs.dropWhile isBlank =
      trim cs ++ ((cs.dropWhile isBlank).reverse.takeWhile isBlank).reverse := by
    rw [trim, ← List.reverse_append, List.takeWhile_append_dropWhile, List.reverse_reverse]
  refine ⟨⟨cs.takeWhile isBlank, ((cs.dropWhile isBlank).reverse.takeWhile isBlank).reverse, ?_,
    fun c => isBlank_of_mem_takeWhile, ?_⟩, ?_, ?_⟩
  · rw [List.append_assoc, ← hsplit, List.takeWhile_append_dropWhile]
  · intro c hc
    exact isBlank_of_mem_takeWhile (List.mem_reverse.mp hc)
  · intro c hc
    have hhead : c ∈ (cs.dropWhile isBlank).head? := by
      rw [hsplit, List.head?_append, Option.mem_def.mp hc]
      rfl
    exact isBlank_of_head?_dropWhile hhead
  · intro c hc
    rw [trim, List.getLast?_reverse] at hc
    exact isBlank_of_head?_dropWhile hc

end Ebpf.Text
