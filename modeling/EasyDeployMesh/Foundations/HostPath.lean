import Mathlib.Tactic.Common
import Mathlib.Data.List.Basic

/-!
# Names joined to the path of a directory

`Path::join` on Unix and on Windows, and the place of the file system that a joined path denotes. A
place is an anchor (the root of the file system, a drive, the network) and the names of the
directories below it. A name that is joined is split at the separators of the platform; empty parts
and `.` stay where they are, and `..` leads to the directory above. A name that is absolute, or has
a drive prefix on Windows, replaces the directory.

## Main definitions

* `Foundations.Platform`, `Foundations.HostPath`, `Foundations.Platform.join`: joined names.
* `Foundations.HostPath.Beneath`: the places in a directory, at any depth, and the directory itself.
* `Foundations.Platform.StaysBeneath`: names that, joined one after the other, do not leave a
  directory.

## Main results

* `Foundations.forall_beneath_foldl_join_iff`: the names that lead beneath every directory.
* `Foundations.staysBeneath_plain_iff`: names of a single part.
-/

namespace Foundations

/-! ### Components -/

/-- One component behind a place; the root is its own parent. -/
def ascend (place : List String) (component : String) : List String :=
  if component = ".." then place.dropLast else place ++ [component]

/-- Components that, followed from `depth` levels below a place, never lead above it. -/
def staysBelow : ℕ → List String → Bool
  | _, [] => true
  | 0, c :: l => c ≠ ".." && staysBelow 1 l
  | depth + 1, c :: l => if c = ".." then staysBelow depth l else staysBelow (depth + 2) l

/-- Components that never lead above a place lead below it. -/
theorem exists_foldl_ascend {components base tail : List String}
    (h : staysBelow tail.length components = true) :
    ∃ tail', components.foldl ascend (base ++ tail) = base ++ tail' := by
  induction components generalizing tail with
  | nil => exact ⟨tail, rfl⟩
  | cons c l ih =>
    rw [List.foldl_cons, ascend]
    rcases List.eq_nil_or_concat tail with rfl | ⟨front, d, rfl⟩
    · simp only [List.length_nil, staysBelow, Bool.and_eq_true, decide_eq_true_iff] at h
      obtain ⟨tail', htail'⟩ := @ih [c] h.2
      exact ⟨tail', by rw [if_neg h.1, List.append_nil, htail']⟩
    · rw [List.concat_eq_append, List.length_append, List.length_singleton, staysBelow] at h
      rw [List.concat_eq_append]
      split_ifs at h ⊢ with hc
      · obtain ⟨tail', htail'⟩ := @ih front h
        refine ⟨tail', ?_⟩
        rw [← List.append_assoc, List.dropLast_concat, htail']
      · obtain ⟨tail', htail'⟩ := @ih (front ++ [d] ++ [c]) (by simpa using h)
        exact ⟨tail', by rw [List.append_assoc base, htail']⟩

/-- Other components lead, at some point, above every place that they are followed from. -/
theorem exists_foldl_ascend_eq_nil {components tail : List String}
    (h : staysBelow tail.length components = false) :
    ∃ l rest, components = l ++ rest ∧ ∀ x, l.foldl ascend (x :: tail) = [] := by
  induction components generalizing tail with
  | nil => simp [staysBelow] at h
  | cons c l ih =>
    rcases List.eq_nil_or_concat tail with rfl | ⟨front, d, rfl⟩
    · by_cases hc : c = ".."
      · exact ⟨[c], l, rfl, fun x => by simp [ascend, hc]⟩
      · have hl : staysBelow [c].length l = false := by simpa [staysBelow, hc] using h
        obtain ⟨front, rest, rfl, hnil⟩ := ih hl
        refine ⟨c :: front, rest, rfl, fun x => ?_⟩
        rw [List.foldl_cons, ascend, if_neg hc, List.singleton_append, hnil]
    · rw [List.concat_eq_append] at h ⊢
      rw [List.length_append, List.length_singleton, staysBelow] at h
      split_ifs at h with hc
      · obtain ⟨l', rest, rfl, hnil⟩ := ih h
        refine ⟨c :: l', rest, rfl, fun x => ?_⟩
        rw [List.foldl_cons, ascend, if_pos hc, ← List.cons_append, List.dropLast_concat, hnil]
      · obtain ⟨l', rest, rfl, hnil⟩ := @ih (front ++ [d] ++ [c]) (by simpa using h)
        refine ⟨c :: l', rest, rfl, fun x => ?_⟩
        rw [List.foldl_cons, ascend, if_neg hc, List.cons_append, hnil]

theorem mem_foldl_ascend {components base : List String} {c : String}
    (h : c ∈ components.foldl ascend base) : c ∈ base ∨ c ∈ components := by
  induction components generalizing base with
  | nil => exact Or.inl h
  | cons d components ih =>
    rcases ih h with hbase | hrest
    · unfold ascend at hbase
      split_ifs at hbase
      · exact Or.inl (List.dropLast_subset _ hbase)
      · rcases List.mem_append.1 hbase with hbase | hd
        · exact Or.inl hbase
        · exact Or.inr (List.mem_singleton.1 hd ▸ List.mem_cons_self)
    · exact Or.inr (List.mem_cons_of_mem d hrest)

/-! ### Joined names -/

/-- The systems whose paths the host and its guests use. -/
inductive Platform
  | unix
  | windows
  deriving DecidableEq, Repr

/-- A place of the file system. -/
structure HostPath where
  anchor : String
  components : List String
  deriving DecidableEq, Repr

/-- The place is a directory or lies in it, at any depth. -/
def HostPath.Beneath (directory place : HostPath) : Prop :=
  place.anchor = directory.anchor ∧ directory.components <+: place.components

/-- A letter and a colon at the front of a name. -/
def hasDrivePrefix : List Char → Bool
  | letter :: ':' :: _ => letter.isAlpha
  | _ => false

namespace Platform

variable (p : Platform)

/-- The characters between the components of a path. -/
def isSeparator (c : Char) : Bool :=
  match p with
  | unix => c == '/'
  | windows => c == '/' || c == '\\'

/-- The parts of a name. -/
def components (name : List Char) : List String :=
  ((name.splitOnP p.isSeparator).map String.ofList).filter fun part => part ≠ "" ∧ part ≠ "."

/-- The name does not lead on from the directory that it is joined to: it begins with a separator,
or with a drive on Windows. -/
def replaces (name : List Char) : Bool :=
  name.head?.any p.isSeparator || (p = windows && hasDrivePrefix name)

/-- The anchor of a name that replaces a directory. On Windows this is a drive, with a separator or
without, the network, or the anchor of the directory. -/
def anchorOf (base : String) (name : List Char) : String :=
  match p with
  | unix => "/"
  | windows =>
    if hasDrivePrefix name then
      String.ofList (name.take 2) ++
        if (name.drop 2).head?.any windows.isSeparator then "\\" else ""
    else if (name.drop 1).head?.any windows.isSeparator then "\\\\" else base

/-- The parts of a name that replaces a directory. -/
def ownComponents (name : List Char) : List String :=
  p.components (if p = windows ∧ hasDrivePrefix name then name.drop 2 else name)

/-- `Path::join`. -/
def join (directory : HostPath) (name : String) : HostPath :=
  if p.replaces name.toList then
    { anchor := p.anchorOf directory.anchor name.toList
      components := (p.ownComponents name.toList).foldl ascend [] }
  else { directory with
    components := (p.components name.toList).foldl ascend directory.components }

/-- No name replaces the directory, and their parts never lead above it. -/
def StaysBeneath (names : List String) : Prop :=
  (∀ name ∈ names, p.replaces name.toList = false) ∧
    staysBelow 0 (names.flatMap fun name => p.components name.toList) = true

instance (names : List String) : Decidable (p.StaysBeneath names) :=
  inferInstanceAs (Decidable (_ ∧ _))

end Platform

example : Platform.unix.join ⟨"/", ["srv", "media"]⟩ "boot//../../x" = ⟨"/", ["srv", "x"]⟩ ∧
    Platform.windows.join ⟨"D:\\", ["media"]⟩ "C:x" = ⟨"C:", ["x"]⟩ := by decide +kernel

/-! ### Names joined one after the other -/

section Chains

variable {p : Platform} {names : List String} {c : String}

/-- Names that do not replace the directory extend it by their parts. -/
theorem foldl_join_of_not_replaces (h : ∀ name ∈ names, p.replaces name.toList = false)
    (directory : HostPath) :
    names.foldl p.join directory = { directory with
      components := (names.flatMap fun name => p.components name.toList).foldl ascend
        directory.components } := by
  induction names generalizing directory with
  | nil => rfl
  | cons name names ih =>
    rw [List.forall_mem_cons] at h
    rw [List.foldl_cons, ih h.2, List.flatMap_cons, List.foldl_append, Platform.join, h.1]
    rfl

/-- Whatever is joined, the components are those of the directory or parts of the names. -/
theorem mem_components_foldl_join {directory : HostPath}
    (h : c ∈ (names.foldl p.join directory).components) :
    c ∈ directory.components ∨
      c ∈ names.flatMap fun name => p.components name.toList ++ p.ownComponents name.toList := by
  induction names generalizing directory with
  | nil => exact Or.inl h
  | cons name names ih =>
    rw [List.flatMap_cons, List.mem_append, List.mem_append]
    rcases ih h with hjoined | hrest
    · unfold Platform.join at hjoined
      split_ifs at hjoined
      · rcases mem_foldl_ascend hjoined with hnil | hown
        · exact absurd hnil List.not_mem_nil
        · exact Or.inr (Or.inl (Or.inr hown))
      · rcases mem_foldl_ascend hjoined with hbase | hname
        · exact Or.inl hbase
        · exact Or.inr (Or.inl (Or.inl hname))
    · exact Or.inr (Or.inr hrest)

/-- Behind a name that replaces it, nothing is left of the directory. -/
theorem mem_components_of_replaces {name : String} (hname : name ∈ names)
    (h : p.replaces name.toList = true) {directory : HostPath}
    (hc : c ∈ (names.foldl p.join directory).components) :
    c ∈ names.flatMap fun name => p.components name.toList ++ p.ownComponents name.toList := by
  obtain ⟨before, after, rfl⟩ := List.append_of_mem hname
  rw [List.foldl_append, List.foldl_cons] at hc
  rw [List.flatMap_append, List.flatMap_cons, List.mem_append, List.mem_append, List.mem_append]
  rcases mem_components_foldl_join hc with hjoined | hrest
  · rw [Platform.join, if_pos h] at hjoined
    rcases mem_foldl_ascend hjoined with hnil | hown
    · exact absurd hnil List.not_mem_nil
    · exact Or.inr (Or.inl (Or.inr hown))
  · exact Or.inr (Or.inr hrest)

private theorem exists_notMem (l : List String) : ∃ x, x ∉ l := by
  have hbound : ∃ n, ∀ s ∈ l, s.length < n := by
    induction l with
    | nil => exact ⟨0, fun s hs => absurd hs List.not_mem_nil⟩
    | cons s l ih =>
      obtain ⟨n, hn⟩ := ih
      refine ⟨max n (s.length + 1), List.forall_mem_cons.2 ⟨by omega, fun t ht => ?_⟩⟩
      have hlt := hn t ht
      omega
  obtain ⟨n, hn⟩ := hbound
  refine ⟨String.ofList (List.replicate n 'x'), fun hmem => ?_⟩
  have hlt := hn _ hmem
  rw [String.length_ofList, List.length_replicate] at hlt
  exact absurd hlt (Nat.lt_irrefl n)

/-- The names that, joined to any directory, lead to a place in it. -/
theorem forall_beneath_foldl_join_iff :
    (∀ directory : HostPath, directory.Beneath (names.foldl p.join directory)) ↔
      p.StaysBeneath names := by
  constructor
  · intro h
    -- a directory whose name is not a part of the names is left for good
    obtain ⟨x, hx⟩ := exists_notMem
      (names.flatMap fun name => p.components name.toList ++ p.ownComponents name.toList)
    have hmem : x ∈ (names.foldl p.join ⟨"", [x]⟩).components :=
      (h ⟨"", [x]⟩).2.subset List.mem_cons_self
    have hplain : ∀ name ∈ names, p.replaces name.toList = false := by
      intro name hname
      by_contra hreplaces
      rw [Bool.not_eq_false] at hreplaces
      exact hx (mem_components_of_replaces hname hreplaces hmem)
    refine ⟨hplain, ?_⟩
    by_contra hascends
    rw [Bool.not_eq_true] at hascends
    obtain ⟨l, rest, hparts, hnil⟩ := @exists_foldl_ascend_eq_nil _ [] hascends
    rw [foldl_join_of_not_replaces hplain] at hmem
    dsimp only at hmem
    rw [hparts, List.foldl_append, hnil] at hmem
    rcases mem_foldl_ascend hmem with hempty | hrest
    · exact absurd hempty List.not_mem_nil
    · have hpart : x ∈ names.flatMap fun name => p.components name.toList :=
        hparts ▸ List.mem_append_right l hrest
      obtain ⟨name, hname, hxname⟩ := List.mem_flatMap.1 hpart
      exact hx (List.mem_flatMap.2 ⟨name, hname, List.mem_append_left _ hxname⟩)
  · rintro ⟨hplain, hbelow⟩ directory
    rw [foldl_join_of_not_replaces hplain]
    obtain ⟨tail, htail⟩ := @exists_foldl_ascend _ directory.components [] hbelow
    rw [List.append_nil] at htail
    exact ⟨rfl, ⟨tail, htail.symm⟩⟩

/-! ### Plain names -/

/-- A name of a single part that is neither `.` nor `..`, on either platform. -/
structure IsPlainName (name : String) : Prop where
  nonempty : name ≠ ""
  ne_dot : name ≠ "."
  ne_dotDot : name ≠ ".."
  slash : '/' ∉ name.toList
  backslash : '\\' ∉ name.toList

theorem IsPlainName.isSeparator {name : String} (h : IsPlainName name) {c : Char}
    (hc : c ∈ name.toList) (p : Platform) : p.isSeparator c = false := by
  have hslash : c ≠ '/' := fun heq => h.slash (heq ▸ hc)
  have hbackslash : c ≠ '\\' := fun heq => h.backslash (heq ▸ hc)
  cases p <;> simp [Platform.isSeparator, hslash, hbackslash]

theorem IsPlainName.components {name : String} (h : IsPlainName name) (p : Platform) :
    p.components name.toList = [name] := by
  rw [Platform.components, List.splitOnP_eq_singleton fun c hc => h.isSeparator hc p]
  simp [h.nonempty, h.ne_dot]

theorem IsPlainName.replaces {name : String} (h : IsPlainName name) (p : Platform) :
    p.replaces name.toList = (decide (p = .windows) && hasDrivePrefix name.toList) := by
  have hhead : name.toList.head?.any p.isSeparator = false := by
    cases hfirst : name.toList.head? with
    | none => rfl
    | some c => exact h.isSeparator (List.mem_of_head? hfirst) p
  rw [Platform.replaces, hhead, Bool.false_or]

theorem staysBelow_of_notMem {components : List String} (h : ".." ∉ components) (depth : ℕ) :
    staysBelow depth components = true := by
  induction components generalizing depth with
  | nil => cases depth <;> rfl
  | cons c l ih =>
    rw [List.mem_cons, not_or] at h
    cases depth with
    | zero => simp [staysBelow, Ne.symm h.1, ih h.2]
    | succ depth => simp [staysBelow, Ne.symm h.1, ih h.2]

/-- Plain names lead on from a directory, but for drive prefixes on Windows. -/
theorem staysBeneath_plain_iff (h : ∀ name ∈ names, IsPlainName name) :
    p.StaysBeneath names ↔
      p = .unix ∨ ∀ name ∈ names, hasDrivePrefix name.toList = false := by
  have hparts : (names.flatMap fun name => p.components name.toList) = names := by
    rw [List.flatMap_congr fun name hname => (h name hname).components p, List.flatMap_singleton']
  have hnone : ".." ∉ names := fun hmem => (h ".." hmem).ne_dotDot rfl
  rw [Platform.StaysBeneath, hparts, and_iff_left (staysBelow_of_notMem hnone 0)]
  cases p with
  | unix =>
    refine iff_of_true (fun name hname => ?_) (Or.inl rfl)
    rw [(h name hname).replaces]
    rfl
  | windows =>
    rw [or_iff_right (by decide)]
    refine forall₂_congr fun name hname => ?_
    rw [(h name hname).replaces]
    rfl

end Chains

end Foundations
