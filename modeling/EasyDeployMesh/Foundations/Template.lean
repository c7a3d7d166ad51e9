import EasyDeployMesh.Foundations.Text
import Mathlib.Data.List.Forall2

/-!
# Documents made of lines with holes

A generated document is a sequence of lines, and each line is fixed text but for at most one hole.
What a hole may hold is a property of texts. A document fits a list of forms when its lines are the
forms with admitted texts in their holes, so that no text in a hole adds a line or changes what
stands around the hole.

## Main definitions

* `Foundations.LineForm`, `Foundations.LineForm.Fits`: a line with a hole, and the lines it stands
  for.
* `Foundations.FitsTemplate`: the documents that a list of forms stands for.
* `Foundations.LineForm.fill`: the line of a form with a text in its hole.

## Main results

* `Foundations.fitsTemplate_unlines`: lines that fit their forms, and are single lines, make a
  document that fits.
* `Foundations.fitsTemplate_fill`: filled forms make a document that fits.
* `Foundations.Text.replaceAll_hole`, `Foundations.Text.replaceAll_unlines_fill`: the replacement of
  a placeholder in a line, and in the holes of forms.
-/

namespace Foundations

/-- A line that is fixed but for a hole; a line without one has nothing to fill in. -/
structure LineForm (H : Type*) where
  before : String
  hole : Option H
  after : String

/-- The text neither ends a line nor moves back to its beginning. -/
def Text.IsSingleLine (s : String) : Prop := '\n' ∉ s.toList ∧ '\r' ∉ s.toList

instance (s : String) : Decidable (Text.IsSingleLine s) := inferInstanceAs (Decidable (_ ∧ _))

theorem Text.IsSingleLine.append {s t : String} (hs : Text.IsSingleLine s)
    (ht : Text.IsSingleLine t) : Text.IsSingleLine (s ++ t) := by
  simp only [Text.IsSingleLine, String.toList_append, List.mem_append, not_or]
  exact ⟨⟨hs.1, ht.1⟩, hs.2, ht.2⟩

/-- A text is a single line when a property of its characters keeps line ends out. -/
theorem Text.isSingleLine_of_all {p : Char → Bool} (hfeed : p '\n' = false)
    (hreturn : p '\r' = false) {s : String} (h : s.toList.all p = true) : Text.IsSingleLine s := by
  rw [List.all_eq_true] at h
  refine ⟨fun hmem => ?_, fun hmem => ?_⟩
  · exact Bool.false_ne_true (hfeed.symm.trans (h _ hmem))
  · exact Bool.false_ne_true (hreturn.symm.trans (h _ hmem))

/-! The characters of a literal are those of the list that it stands for, so that a check of many
literals decodes none of them. -/

theorem Text.isSingleLine_ofList {l : List Char} (h : '\n' ∉ l ∧ '\r' ∉ l) :
    Text.IsSingleLine (String.ofList l) := by
  rwa [Text.IsSingleLine, String.toList_ofList]

theorem Text.forall_isSingleLine_cons {l : List Char} {ls : List String} (h : '\n' ∉ l ∧ '\r' ∉ l)
    (hls : ∀ s ∈ ls, Text.IsSingleLine s) : ∀ s ∈ String.ofList l :: ls, Text.IsSingleLine s :=
  List.forall_mem_cons.mpr ⟨Text.isSingleLine_ofList h, hls⟩

theorem Text.notMem_ofList {c : Char} {l : List Char} (h : c ∉ l) :
    c ∉ (String.ofList l).toList := by
  rwa [String.toList_ofList]

theorem Text.forall_notMem_cons {c : Char} {l : List Char} {ls : List String} (h : c ∉ l)
    (hls : ∀ s ∈ ls, c ∉ s.toList) : ∀ s ∈ String.ofList l :: ls, c ∉ s.toList :=
  List.forall_mem_cons.mpr ⟨Text.notMem_ofList h, hls⟩

/-- Single lines are read back. -/
theorem Text.lines_unlines {ls : List String} (h : ∀ l ∈ ls, Text.IsSingleLine l) :
    Text.lines (Text.unlines ls) = ls := by
  have hread := Text.lines_unlines_append
    (fun l hl => ⟨(h l hl).1, fun hlast => (h l hl).2 (List.mem_of_getLast? hlast)⟩) ""
  simpa [Text.lines, Text.cutLines] using hread

namespace LineForm

variable {H : Type*} {admits : H → String → Prop} {form : LineForm H} {line : String}

/-- A line without a hole. -/
def fixed (line : String) : LineForm H where
  before := line
  hole := none
  after := ""

variable (admits form line) in
/-- The line is the form with an admitted text in its hole. -/
def Fits : Prop :=
  match form.hole with
  | none => line = form.before ++ form.after
  | some hole => ∃ text, admits hole text ∧ line = form.before ++ text ++ form.after

theorem fits_fixed_iff {text : String} :
    (fixed text : LineForm H).Fits admits line ↔ line = text := by
  simp [fixed, Fits]

/-- A line begins with the text before the hole. -/
theorem Fits.before_prefix (h : form.Fits admits line) : form.before.toList <+: line.toList := by
  obtain ⟨before, hole, after⟩ := form
  cases hole with
  | none =>
    obtain rfl : line = before ++ after := h
    rw [String.toList_append]
    exact List.prefix_append _ _
  | some hole =>
    obtain ⟨text, -, rfl⟩ := h
    rw [String.toList_append, String.toList_append, List.append_assoc]
    exact List.prefix_append _ _

/-- A form whose fixed text and whose hole are single lines stands for single lines. -/
theorem Fits.isSingleLine (hadmits : ∀ hole text, admits hole text → Text.IsSingleLine text)
    (hbefore : Text.IsSingleLine form.before) (hafter : Text.IsSingleLine form.after)
    (h : form.Fits admits line) : Text.IsSingleLine line := by
  obtain ⟨before, hole, after⟩ := form
  cases hole with
  | none =>
    obtain rfl : line = before ++ after := h
    exact hbefore.append hafter
  | some hole =>
    obtain ⟨text, htext, rfl⟩ := h
    exact (hbefore.append (hadmits hole text htext)).append hafter

end LineForm

/-- The lines of the document fit the forms one after the other, and the document consists of these
lines. -/
structure FitsTemplate {H : Type*} (admits : H → String → Prop) (forms : List (LineForm H))
    (document : String) : Prop where
  fits : List.Forall₂ (LineForm.Fits admits) forms (Text.lines document)
  unlines : Text.unlines (Text.lines document) = document

/-- Lines that fit their forms make a document that fits. -/
theorem fitsTemplate_unlines {H : Type*} {admits : H → String → Prop} {forms : List (LineForm H)}
    {ls : List String} (h : List.Forall₂ (LineForm.Fits admits) forms ls)
    (hsingle : ∀ l ∈ ls, Text.IsSingleLine l) : FitsTemplate admits forms (Text.unlines ls) := by
  have hread := Text.lines_unlines hsingle
  refine ⟨?_, ?_⟩
  · rwa [hread]
  · rw [hread]

/-! ### Filled forms -/

section Fill

variable {H : Type*} {admits : H → String → Prop} {text : H → String} {forms : List (LineForm H)}

namespace LineForm

variable (text) in
/-- The line of a form with the given text in its hole. -/
def fill (form : LineForm H) : String :=
  match form.hole with
  | none => form.before ++ form.after
  | some hole => form.before ++ text hole ++ form.after

@[simp] theorem fill_fixed (line : String) : (fixed line).fill text = line :=
  String.append_empty

/-- Fixed lines have nothing to fill in. -/
@[simp] theorem map_fill_fixed (ls : List String) : (ls.map fixed).map (fill text) = ls := by
  rw [List.map_map]
  exact (List.map_congr_left fun l _ => fill_fixed l).trans (List.map_id ls)

/-- A property of the holes has nothing to say about fixed lines. -/
theorem forall_hole_of_mem_map_fixed {p : LineForm H → H → Prop} {ls : List String} :
    ∀ form ∈ ls.map (fixed : String → LineForm H), ∀ hole, form.hole = some hole → p form hole := by
  intro form hmem hole hhole
  obtain ⟨l, -, rfl⟩ := List.mem_map.1 hmem
  exact absurd hhole (Option.some_ne_none hole).symm

theorem fits_fill {form : LineForm H}
    (h : ∀ hole, form.hole = some hole → admits hole (text hole)) :
    form.Fits admits (form.fill text) := by
  obtain ⟨before, hole, after⟩ := form
  cases hole with
  | none => rfl
  | some hole => exact ⟨text hole, h hole rfl, rfl⟩

/-- A form behind `n` spaces. -/
def indent (n : ℕ) (form : LineForm H) : LineForm H :=
  { form with before := String.ofList (List.replicate n ' ') ++ form.before }

theorem fill_indent (n : ℕ) (form : LineForm H) :
    (form.indent n).fill text = String.ofList (List.replicate n ' ') ++ form.fill text := by
  obtain ⟨before, hole, after⟩ := form
  cases hole with
  | none => exact String.append_assoc ..
  | some hole => simp only [indent, fill, String.append_assoc]

/-- The fixed text of the form is on one line. -/
def IsSingleLine (form : LineForm H) : Prop :=
  Text.IsSingleLine form.before ∧ Text.IsSingleLine form.after

theorem IsSingleLine.fill {form : LineForm H} (h : form.IsSingleLine)
    (htext : ∀ hole, Text.IsSingleLine (text hole)) : Text.IsSingleLine (form.fill text) := by
  obtain ⟨before, hole, after⟩ := form
  cases hole with
  | none => exact h.1.append h.2
  | some hole => exact (h.1.append (htext hole)).append h.2

theorem IsSingleLine.indent {form : LineForm H} (h : form.IsSingleLine) (n : ℕ) :
    (form.indent n).IsSingleLine := by
  refine ⟨Text.IsSingleLine.append (Text.isSingleLine_ofList ?_) h.1, h.2⟩
  simp only [List.mem_replicate, not_and]
  exact ⟨fun _ => by decide, fun _ => by decide⟩

theorem forall_isSingleLine_map_fixed {ls : List String} (h : ∀ l ∈ ls, Text.IsSingleLine l) :
    ∀ form ∈ ls.map (fixed : String → LineForm H), form.IsSingleLine := by
  intro form hmem
  obtain ⟨l, hl, rfl⟩ := List.mem_map.1 hmem
  exact ⟨h l hl, Text.isSingleLine_ofList (by decide)⟩

theorem forall_isSingleLine_map_indent (h : ∀ form ∈ forms, form.IsSingleLine) (n : ℕ) :
    ∀ form ∈ forms.map (indent n), form.IsSingleLine := by
  intro form hmem
  obtain ⟨form, hform, rfl⟩ := List.mem_map.1 hmem
  exact (h form hform).indent n

end LineForm

/-- Filled forms make a document that fits, when their texts are single lines. -/
theorem fitsTemplate_fill (htext : ∀ hole, Text.IsSingleLine (text hole))
    (hforms : ∀ form ∈ forms, form.IsSingleLine)
    (hholes : ∀ form ∈ forms, ∀ hole, form.hole = some hole → admits hole (text hole)) :
    FitsTemplate admits forms (Text.unlines (forms.map (LineForm.fill text))) := by
  refine fitsTemplate_unlines ?_ ?_
  · rw [List.forall₂_map_right_iff, List.forall₂_same]
    exact fun form hmem => LineForm.fits_fill (hholes form hmem)
  · intro line hline
    obtain ⟨form, hmem, rfl⟩ := List.mem_map.1 hline
    exact (hforms form hmem).fill htext

end Fill

namespace Text

theorem unlines_append (ls rest : List String) :
    unlines (ls ++ rest) = unlines ls ++ unlines rest := by
  simp only [unlines, List.map_append, String.join_append]

theorem indentLines_unlines {ls : List String} (h : ∀ l ∈ ls, IsSingleLine l) (n : ℕ) :
    indentLines (unlines ls) n =
      unlines (ls.map fun l => String.ofList (List.replicate n ' ') ++ l) := by
  rw [indentLines, lines_unlines h, unlines, List.map_map]
  rfl

/-- Filled forms are indented as forms. -/
theorem indentLines_unlines_fill {H : Type*} {text : H → String} {forms : List (LineForm H)}
    (hforms : ∀ form ∈ forms, form.IsSingleLine) (htext : ∀ hole, IsSingleLine (text hole))
    (n : ℕ) :
    indentLines (unlines (forms.map (LineForm.fill text))) n =
      unlines ((forms.map (LineForm.indent n)).map (LineForm.fill text)) := by
  have hlines : ∀ l ∈ forms.map (LineForm.fill text), IsSingleLine l := by
    intro l hl
    obtain ⟨form, hform, rfl⟩ := List.mem_map.1 hl
    exact (hforms form hform).fill htext
  rw [indentLines_unlines hlines, List.map_map, List.map_map]
  exact congrArg unlines (List.map_congr_left fun form _ => (LineForm.fill_indent n form).symm)

/-! ### Placeholders -/

section Replace

variable {pat rep : List Char}

/-- Nothing is replaced where the pattern does not occur. -/
theorem replaceFrom_of_not_isInfix {l : List Char} (h : ¬ pat <:+: l) :
    replaceFrom pat rep 0 l = l := by
  induction l with
  | nil => rfl
  | cons c l ih =>
    have hprefix : ¬ pat.isPrefixOf (c :: l) = true := fun hp =>
      h (List.isPrefixOf_iff_prefix.mp hp).isInfix
    rw [replaceFrom, if_neg hprefix, ih fun hin => h (hin.trans (List.suffix_cons c l).isInfix)]

/-- Nothing is replaced where a character of the pattern does not occur. -/
theorem replaceFrom_of_notMem {c : Char} {l : List Char} (hpat : c ∈ pat) (hl : c ∉ l) :
    replaceFrom pat rep 0 l = l :=
  replaceFrom_of_not_isInfix fun hin => hl (hin.subset hpat)

/-- An occurrence behind characters that begin none. -/
theorem replaceFrom_append {c : Char} {before after : List Char} (hbefore : c ∉ before)
    (hafter : c ∉ after) :
    replaceFrom (c :: pat) rep 0 (before ++ (c :: pat ++ after)) = before ++ (rep ++ after) := by
  have hskip (l : List Char) : replaceFrom (c :: pat) rep l.length (l ++ after) =
      replaceFrom (c :: pat) rep 0 after := by
    induction l with
    | nil => rfl
    | cons d l ih => rw [List.length_cons, List.cons_append, replaceFrom, ih]
  induction before with
  | nil =>
    have hprefix : (c :: pat).isPrefixOf (c :: (pat ++ after)) = true :=
      List.isPrefixOf_iff_prefix.mpr (List.prefix_append (c :: pat) after)
    rw [List.nil_append, List.nil_append, List.cons_append, replaceFrom, if_pos hprefix,
      List.length_cons, Nat.add_sub_cancel, hskip,
      replaceFrom_of_notMem List.mem_cons_self hafter]
  | cons d before ih =>
    rw [List.mem_cons, not_or] at hbefore
    have hprefix : ¬ (c :: pat).isPrefixOf (d :: (before ++ (c :: pat ++ after))) = true := by
      simp [List.isPrefixOf, hbefore.1]
    rw [List.cons_append, replaceFrom, if_neg hprefix, ih hbefore.2, List.cons_append]

/-- A pattern without a newline begins a text when it begins its first line. -/
theorem isPrefixOf_append_newline (hpat : '\n' ∉ pat) (l rest : List Char) :
    pat.isPrefixOf (l ++ '\n' :: rest) = pat.isPrefixOf l := by
  rw [Bool.eq_iff_iff, List.isPrefixOf_iff_prefix, List.isPrefixOf_iff_prefix]
  refine ⟨fun h => ?_, fun h => h.trans (List.prefix_append _ _)⟩
  rcases Nat.lt_or_ge l.length pat.length with hlt | hge
  · have hline : l ++ ['\n'] <+: l ++ '\n' :: rest := ⟨rest, by simp⟩
    have hin : l ++ ['\n'] <+: pat :=
      List.prefix_of_prefix_length_le hline h (by rw [List.length_append]; exact hlt)
    exact absurd (hin.subset (List.mem_append_right _ List.mem_cons_self)) hpat
  · exact List.prefix_of_prefix_length_le h (List.prefix_append _ _) hge

/-- A pattern without a newline is replaced line by line. -/
theorem replaceFrom_newline (hne : pat ≠ []) (hpat : '\n' ∉ pat) (rest : List Char) {skip : ℕ}
    {l : List Char} (hskip : skip ≤ l.length) :
    replaceFrom pat rep skip (l ++ '\n' :: rest) =
      replaceFrom pat rep skip l ++ '\n' :: replaceFrom pat rep 0 rest := by
  induction l generalizing skip with
  | nil =>
    obtain rfl : skip = 0 := Nat.le_zero.mp hskip
    have hprefix : ¬ pat.isPrefixOf ('\n' :: rest) = true := by
      rw [← List.nil_append ('\n' :: rest), isPrefixOf_append_newline hpat,
        List.isPrefixOf_iff_prefix, List.prefix_nil]
      exact hne
    have hstep : replaceFrom pat rep 0 ('\n' :: rest) = '\n' :: replaceFrom pat rep 0 rest := by
      rw [replaceFrom, if_neg hprefix]
    exact hstep
  | cons c l ih =>
    cases skip with
    | succ skip =>
      rw [List.cons_append, replaceFrom, replaceFrom, ih (Nat.le_of_succ_le_succ hskip)]
    | zero =>
      rw [List.cons_append, replaceFrom, replaceFrom, ← List.cons_append,
        isPrefixOf_append_newline hpat]
      split_ifs with hprefix
      · have hlength := (List.isPrefixOf_iff_prefix.mp hprefix).length_le
        rw [List.length_cons] at hlength
        rw [ih (by omega), List.append_assoc]
      · rw [ih (Nat.zero_le _), List.cons_append]

end Replace

section ReplaceAll

variable {pat rep : String}

theorem replaceAll_of_not_isInfix {s : String} (h : ¬ pat.toList <:+: s.toList) :
    replaceAll pat rep s = s := by
  rw [replaceAll, replaceFrom_of_not_isInfix h, String.ofList_toList]

theorem replaceAll_of_notMem {c : Char} {s : String} (hpat : c ∈ pat.toList) (hs : c ∉ s.toList) :
    replaceAll pat rep s = s :=
  replaceAll_of_not_isInfix fun hin => hs (hin.subset hpat)

/-- A placeholder whose first character is not in the rest of the line is filled. -/
theorem replaceAll_hole {c : Char} {before after : String} (hpat : pat.toList.head? = some c)
    (hbefore : c ∉ before.toList) (hafter : c ∉ after.toList) :
    replaceAll pat rep (before ++ pat ++ after) = before ++ rep ++ after := by
  obtain ⟨tail, htail⟩ := List.head?_eq_some_iff.mp hpat
  rw [replaceAll, String.toList_append, String.toList_append, List.append_assoc, htail,
    replaceFrom_append hbefore hafter]
  simp [← String.toList_inj, String.toList_append]

/-- A placeholder on one line is filled line by line. -/
theorem replaceAll_unlines (hne : pat.toList ≠ []) (hpat : '\n' ∉ pat.toList) (ls : List String) :
    replaceAll pat rep (unlines ls) = unlines (ls.map (replaceAll pat rep)) := by
  have hcons (l : String) (ls : List String) : unlines (l :: ls) = l ++ "\n" ++ unlines ls := by
    simp [unlines]
  induction ls with
  | nil => rfl
  | cons l ls ih =>
    have htext : (l ++ "\n" ++ unlines ls).toList = l.toList ++ '\n' :: (unlines ls).toList := by
      simp [String.toList_append]
    rw [List.map_cons, hcons, hcons, ← ih, replaceAll, htext,
      replaceFrom_newline hne hpat _ (Nat.zero_le _)]
    simp [replaceAll, ← String.toList_inj, String.toList_append]

section Fill

variable {H : Type*} {text text' : H → String}

/-- A line does not change when a character of the placeholder is missing in it. -/
theorem replaceAll_fill_of_notMem {c : Char} {form : LineForm H} (hpat : c ∈ pat.toList)
    (hbefore : c ∉ form.before.toList) (hafter : c ∉ form.after.toList)
    (hhole : ∀ hole, form.hole = some hole → text' hole = text hole ∧ c ∉ (text hole).toList) :
    replaceAll pat rep (form.fill text) = form.fill text' := by
  obtain ⟨before, hole, after⟩ := form
  cases hole with
  | none =>
    refine replaceAll_of_notMem hpat ?_
    rw [LineForm.fill, String.toList_append, List.mem_append, not_or]
    exact ⟨hbefore, hafter⟩
  | some hole =>
    obtain ⟨htext, hnotMem⟩ := hhole hole rfl
    simp only [LineForm.fill, htext]
    refine replaceAll_of_notMem hpat ?_
    simp only [String.toList_append, List.mem_append, not_or]
    exact ⟨⟨hbefore, hnotMem⟩, hafter⟩

/-- Fixed lines do not change when they lack a character of the placeholder. -/
theorem replaceAll_fill_of_mem_map_fixed {c : Char} {ls : List String} (hpat : c ∈ pat.toList)
    (h : ∀ l ∈ ls, c ∉ l.toList) : ∀ form ∈ ls.map (LineForm.fixed : String → LineForm H),
      replaceAll pat rep (form.fill text) = form.fill text' := by
  intro form hmem
  obtain ⟨l, hl, rfl⟩ := List.mem_map.1 hmem
  exact replaceAll_fill_of_notMem hpat (h l hl) List.not_mem_nil nofun

/-- A placeholder is replaced in a document when it is replaced in the lines. -/
theorem replaceAll_unlines_fill {forms : List (LineForm H)} (hne : pat.toList ≠ [])
    (hpat : '\n' ∉ pat.toList)
    (h : ∀ form ∈ forms, replaceAll pat rep (form.fill text) = form.fill text') :
    replaceAll pat rep (unlines (forms.map (LineForm.fill text))) =
      unlines (forms.map (LineForm.fill text')) := by
  rw [replaceAll_unlines hne hpat, List.map_map]
  exact congrArg unlines (List.map_congr_left h)

end Fill

end ReplaceAll

end Text

end Foundations
