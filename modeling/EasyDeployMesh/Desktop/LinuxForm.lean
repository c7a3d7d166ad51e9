import EasyDeployMesh.Core.LinuxInstall
import EasyDeployMesh.Foundations.JavaScript
import EasyDeployMesh.Service.DeviceRegistry.World

/-!
# The form of a Linux installation

The desktop checks the form of a Linux installation (`validateLinuxInstallForm` of
`apps/desktop/app/utils/linux-install.ts`) and builds the options of each device from it; the host
checks the options again (`LinuxInstallOptions::validate`). What the desktop accepts, the host
accepts: the host name of a device is the prefix of the form with six digits of the MAC address.

The regular expressions are classes of code units here, with conditions on the first and the last
one.

## Main definitions

* `EasyDeployMesh.LinuxInstallForm`, `EasyDeployMesh.validateLinuxInstallForm`.
* `EasyDeployMesh.linuxInstallOptionsFor`, `EasyDeployMesh.UiLinuxInstallOptions.receive`: the
  options, and what the host receives.

## Main results

* `EasyDeployMesh.linuxInstallForm_accepted`: the host accepts the options of an accepted form.
-/

namespace EasyDeployMesh

open Foundations

/-- The fields of the form as the operator typed them. -/
structure LinuxInstallForm where
  hostnamePrefix : JsString
  username : JsString
  sshPublicKeys : JsString
  deriving DecidableEq

/-- The messages of the form. -/
inductive LinuxInstallFormError
  | hostnamePrefix
  | username
  | sshPublicKeyCount
  | sshPublicKey
  | duplicateSshPublicKey
  deriving DecidableEq

/-! ### The checks of the desktop -/

/-- The lines of the field, trimmed, without the empty ones. -/
def parseLinuxSshAuthorizedKeys (value : JsString) : List JsString :=
  ((splitJsLines value).map (trimmed isJsWhitespace)).filter fun key => !key.isEmpty

/-- `[a-z]`. -/
def isLowerUnit (u : UInt16) : Bool := 97 ≤ u && u ≤ 122

/-- `[A-Z]`. -/
def isUpperUnit (u : UInt16) : Bool := 65 ≤ u && u ≤ 90

/-- `\d`. -/
def isDigitUnit (u : UInt16) : Bool := 48 ≤ u && u ≤ 57

/-- One to 56 code units that match `^[a-z\d](?:[a-z\d-]*[a-z\d])?$`. -/
def validHostnamePrefix (name : JsString) : Bool :=
  (1 ≤ name.length && name.length ≤ 56) &&
    (name.head?.any fun u => isLowerUnit u || isDigitUnit u) &&
    (name.getLast?.any fun u => isLowerUnit u || isDigitUnit u) &&
    name.all fun u => isLowerUnit u || isDigitUnit u || u == 45

/-- One to 32 code units that match `^[a-z][a-z\d_-]*$`. -/
def validLinuxUsername (username : JsString) : Bool :=
  (1 ≤ username.length && username.length ≤ 32) && username != encodeUtf16 "root" &&
    username.head?.any isLowerUnit &&
    username.all fun u => isLowerUnit u || isDigitUnit u || u == 95 || u == 45

/-- The algorithms that the form accepts. -/
def supportedSshAlgorithms : List JsString :=
  ["ssh-ed25519", "ssh-rsa", "ecdsa-sha2-nistp256", "ecdsa-sha2-nistp384", "ecdsa-sha2-nistp521",
    "sk-ssh-ed25519@openssh.com", "sk-ecdsa-sha2-nistp256@openssh.com"].map encodeUtf16

/-- `[A-Za-z\d+/=]`. -/
def isEncodedUnit (u : UInt16) : Bool :=
  isUpperUnit u || isLowerUnit u || isDigitUnit u || u == 43 || u == 47 || u == 61

/-- One printable line with a known algorithm and a base64 word behind it. -/
def validSshPublicKey (key : JsString) : Bool :=
  if key.isEmpty || 16 * 1024 < key.length || !key.all (fun u => 0x20 ≤ u && u ≤ 0x7E) then false
  else match splitWhitespace key with
    | algorithm :: encoded :: _ =>
      !algorithm.isEmpty && !encoded.isEmpty && supportedSshAlgorithms.contains algorithm &&
        16 ≤ encoded.length && encoded.all isEncodedUnit
    | _ => false

/-- The error that the keys lead to; only the first kind is reported. -/
def sshKeyErrors (keys : List JsString) : List LinuxInstallFormError :=
  if keys.length < 1 || 16 < keys.length then [.sshPublicKeyCount]
  else if keys.any fun key => !validSshPublicKey key then [.sshPublicKey]
  else if keys.dedup.length ≠ keys.length then [.duplicateSshPublicKey]
  else []

/-- Every message of the form, field by field. -/
def validateLinuxInstallForm (form : LinuxInstallForm) : List LinuxInstallFormError :=
  (if !validHostnamePrefix form.hostnamePrefix then [.hostnamePrefix] else []) ++
    (if !validLinuxUsername form.username then [.username] else []) ++
    sshKeyErrors (parseLinuxSshAuthorizedKeys form.sshPublicKeys)

/-! ### The options of a device -/

/-- `[a-f\d]` without regard to case. -/
def isHexUnit (u : UInt16) : Bool :=
  (97 ≤ u && u ≤ 102) || (65 ≤ u && u ≤ 70) || isDigitUnit u

/-- `[a-z\d]` without regard to case, which takes in the long s and the Kelvin sign. -/
def isAlphanumericUnit (u : UInt16) : Bool :=
  isLowerUnit u || isUpperUnit u || isDigitUnit u || u == 0x17F || u == 0x212A

/-- `toLowerCase` of the code units of these classes. -/
def lowerUnit (u : UInt16) : UInt16 :=
  if isUpperUnit u then u + 32 else if u = 0x212A then 107 else u

/-- `slice(-6)`. -/
def lastSix (s : JsString) : JsString := s.drop (s.length - 6)

/-- The last six hexadecimal digits of the MAC address, else the end of the identifier. -/
def deviceHostnameSuffix (entry : RegisteredDevice) : JsString :=
  let macSuffix :=
    (lastSix ((encodeUtf16 entry.device.macAddress).filter isHexUnit)).map lowerUnit
  if macSuffix.length = 6 then macSuffix
  else
    let idSuffix :=
      (lastSix ((encodeUtf16 entry.device.id.hyphenated).filter isAlphanumericUnit)).map lowerUnit
    List.replicate (6 - idSuffix.length) 48 ++ idSuffix

/-- The options as the desktop sends them. -/
structure UiLinuxInstallOptions where
  hostname : JsString
  username : JsString
  sshAuthorizedKeys : List JsString
  deriving DecidableEq

/-- The options that the form sends for one device. -/
def linuxInstallOptionsFor (entry : RegisteredDevice) (form : LinuxInstallForm) :
    UiLinuxInstallOptions where
  hostname := form.hostnamePrefix ++ 45 :: deviceHostnameSuffix entry
  username := form.username
  sshAuthorizedKeys := parseLinuxSshAuthorizedKeys form.sshPublicKeys

/-- The options as the host receives them, if all of their strings are well formed. -/
def UiLinuxInstallOptions.receive (options : UiLinuxInstallOptions) :
    Option LinuxInstallOptions := do
  let hostname ← decodeUtf16 options.hostname
  let username ← decodeUtf16 options.username
  let sshAuthorizedKeys ← options.sshAuthorizedKeys.mapM decodeUtf16
  pure { hostname, username, sshAuthorizedKeys }

/-! ### Classes of code units -/

section Units

variable {u : UInt16} {s : JsString}

private theorem unit_lt {bound : UInt16} (h : u ≤ bound) (hbound : bound < 128) : u < 128 :=
  UInt16.lt_of_le_of_lt h hbound

private theorem lt_of_isLowerUnit (h : isLowerUnit u = true) : u < 128 :=
  unit_lt (by simpa using (Bool.and_eq_true_iff.1 h).2) (by decide)

private theorem lt_of_isUpperUnit (h : isUpperUnit u = true) : u < 128 :=
  unit_lt (by simpa using (Bool.and_eq_true_iff.1 h).2) (by decide)

private theorem lt_of_isDigitUnit (h : isDigitUnit u = true) : u < 128 :=
  unit_lt (by simpa using (Bool.and_eq_true_iff.1 h).2) (by decide)

private theorem isLower_asciiChar (h : isLowerUnit u = true) : (asciiChar u).isLower = true := by
  have hall : ∀ n < 128, 97 ≤ n ∧ n ≤ 122 → (Char.ofNat n).isLower = true := by decide
  refine hall _ (UInt16.lt_iff_toNat_lt.1 (lt_of_isLowerUnit h)) ?_
  simpa [isLowerUnit, UInt16.le_iff_toNat_le] using h

private theorem isUpper_asciiChar (h : isUpperUnit u = true) : (asciiChar u).isUpper = true := by
  have hall : ∀ n < 128, 65 ≤ n ∧ n ≤ 90 → (Char.ofNat n).isUpper = true := by decide
  refine hall _ (UInt16.lt_iff_toNat_lt.1 (lt_of_isUpperUnit h)) ?_
  simpa [isUpperUnit, UInt16.le_iff_toNat_le] using h

private theorem isDigit_asciiChar (h : isDigitUnit u = true) : (asciiChar u).isDigit = true := by
  have hall : ∀ n < 128, 48 ≤ n ∧ n ≤ 57 → (Char.ofNat n).isDigit = true := by decide
  refine hall _ (UInt16.lt_iff_toNat_lt.1 (lt_of_isDigitUnit h)) ?_
  simpa [isDigitUnit, UInt16.le_iff_toNat_le] using h

private theorem isAlphanum_asciiChar (h : (isLowerUnit u || isDigitUnit u) = true) :
    (asciiChar u).isAlphanum = true := by
  rcases Bool.or_eq_true_iff.1 h with h | h
  · rw [Char.isAlphanum, Char.isAlpha, isLower_asciiChar h, Bool.or_true, Bool.true_or]
  · rw [Char.isAlphanum, isDigit_asciiChar h, Bool.or_true]

end Units

/-! ### Host names and user names -/

section Names

variable {name suffix username : JsString} {u : UInt16}

private theorem lt_of_nameUnit (h : (isLowerUnit u || isDigitUnit u || u == 45) = true) :
    u < 128 := by
  simp only [Bool.or_eq_true, beq_iff_eq] at h
  rcases h with (h | h) | rfl
  · exact lt_of_isLowerUnit h
  · exact lt_of_isDigitUnit h
  · decide

/-- The prefix with six digits behind a hyphen is a host name. -/
theorem validLinuxHostname_of_suffix (hname : validHostnamePrefix name = true)
    (hlength : suffix.length = 6)
    (hsuffix : ∀ u ∈ suffix, (isLowerUnit u || isDigitUnit u) = true) :
    decodeUtf16 (name ++ 45 :: suffix) = some (asciiText (name ++ 45 :: suffix)) ∧
      LinuxInstallOptions.validLinuxHostname (asciiText (name ++ 45 :: suffix)) = true := by
  simp only [validHostnamePrefix, Bool.and_eq_true, decide_eq_true_eq] at hname
  obtain ⟨⟨⟨⟨hpos, hmax⟩, hhead⟩, -⟩, hall⟩ := hname
  have hunits : ∀ u ∈ name ++ 45 :: suffix, (isLowerUnit u || isDigitUnit u || u == 45) = true := by
    intro u hu
    rcases List.mem_append.1 hu with hu | hu
    · exact List.all_eq_true.1 hall u hu
    · rcases List.mem_cons.1 hu with rfl | hu
      · rfl
      · rw [hsuffix u hu, Bool.true_or]
  have hascii : ∀ u ∈ name ++ 45 :: suffix, u < 128 := fun u hu => lt_of_nameUnit (hunits u hu)
  refine ⟨decodeUtf16_of_ascii hascii, ?_⟩
  obtain ⟨first, hfirst, hfirstUnit⟩ := (Option.any_eq_true _ _).1 hhead
  obtain ⟨last, hlast⟩ : ∃ last, suffix.getLast? = some last := by
    cases hcase : suffix.getLast? with
    | none =>
      rw [List.getLast?_eq_none_iff] at hcase
      rw [hcase] at hlength
      cases hlength
    | some last => exact ⟨last, rfl⟩
  rw [LinuxInstallOptions.validLinuxHostname, utf8ByteSize_asciiText hascii, toList_asciiText,
    List.head?_map, List.getLast?_map, List.head?_append, hfirst, Option.some_or,
    List.getLast?_append, List.getLast?_cons, hlast]
  simp only [Bool.and_eq_true, decide_eq_true_eq, List.length_append, List.length_cons]
  refine ⟨⟨⟨⟨by omega, by omega⟩, ?_⟩, ?_⟩, ?_⟩
  · exact isAlphanum_asciiChar hfirstUnit
  · exact isAlphanum_asciiChar (hsuffix last (List.mem_of_getLast? hlast))
  · rw [List.all_map, List.all_eq_true]
    intro u hu
    have hunit := hunits u hu
    simp only [Bool.or_eq_true, beq_iff_eq] at hunit
    rw [Function.comp_apply]
    rcases hunit with (hunit | hunit) | rfl
    · rw [isLower_asciiChar hunit, Bool.true_or, Bool.true_or]
    · rw [isDigit_asciiChar hunit, Bool.or_true, Bool.true_or]
    · rfl

/-- The host accepts a user name that the desktop accepts. -/
theorem validLinuxUsername_of_form (h : validLinuxUsername username = true) :
    decodeUtf16 username = some (asciiText username) ∧
      LinuxInstallOptions.validLinuxUsername (asciiText username) = true := by
  simp only [validLinuxUsername, Bool.and_eq_true, decide_eq_true_eq, bne_iff_ne] at h
  obtain ⟨⟨⟨hlength, hroot⟩, hhead⟩, hall⟩ := h
  have hascii : ∀ u ∈ username, u < 128 := by
    intro u hu
    have hunit := List.all_eq_true.1 hall u hu
    simp only [Bool.or_eq_true, beq_iff_eq] at hunit
    rcases hunit with ((hunit | hunit) | rfl) | rfl
    · exact lt_of_isLowerUnit hunit
    · exact lt_of_isDigitUnit hunit
    · decide
    · decide
  refine ⟨decodeUtf16_of_ascii hascii, ?_⟩
  obtain ⟨first, hfirst, hfirstUnit⟩ := (Option.any_eq_true _ _).1 hhead
  rw [LinuxInstallOptions.validLinuxUsername, utf8ByteSize_asciiText hascii, toList_asciiText,
    List.head?_map, hfirst]
  simp only [Bool.and_eq_true, decide_eq_true_eq, bne_iff_ne]
  refine ⟨⟨⟨hlength, fun heq => hroot ?_⟩, isLower_asciiChar hfirstUnit⟩, ?_⟩
  · have hrootAscii : (encodeUtf16 "root").all (fun u => decide (u < 128)) = true := rfl
    simp only [List.all_eq_true, decide_eq_true_eq] at hrootAscii
    refine asciiText_inj hascii hrootAscii (heq.trans ?_)
    rfl
  · rw [List.all_map, List.all_eq_true]
    intro u hu
    have hunit := List.all_eq_true.1 hall u hu
    simp only [Bool.or_eq_true, beq_iff_eq] at hunit
    rw [Function.comp_apply]
    rcases hunit with ((hunit | hunit) | rfl) | rfl
    · rw [isLower_asciiChar hunit, Bool.true_or, Bool.true_or, Bool.true_or]
    · rw [isDigit_asciiChar hunit, Bool.or_true, Bool.true_or, Bool.true_or]
    · rfl
    · rfl

end Names

/-! ### Keys -/

section Keys

variable {key : JsString} {u : UInt16} {s : JsString}

/-- `[\x20-\x7e]`. -/
private abbrev IsPrintable (s : JsString) : Prop := ∀ u ∈ s, 0x20 ≤ u ∧ u ≤ 0x7E

private theorem IsPrintable.ascii (h : IsPrintable s) : ∀ u ∈ s, u < 128 :=
  fun u hu => unit_lt (h u hu).2 (by decide)

private theorem isAsciiWhitespace_asciiChar (h : 0x20 ≤ u ∧ u ≤ 0x7E) :
    Text.isAsciiWhitespace (asciiChar u) = isJsWhitespace u := by
  have hall : ∀ n < 127, 32 ≤ n →
      Text.isAsciiWhitespace (Char.ofNat n) = isJsWhitespace (UInt16.ofNat n) := by decide
  have hlow : 32 ≤ u.toNat := UInt16.le_iff_toNat_le.1 h.1
  have hhigh : u.toNat ≤ 126 := UInt16.le_iff_toNat_le.1 h.2
  have hu := hall u.toNat (by omega) hlow
  rwa [UInt16.ofNat_toNat] at hu

private theorem splitWhitespace_ne_nil (s : JsString) : splitWhitespace s ≠ [] := by
  induction s with
  | nil => exact List.cons_ne_nil _ _
  | cons u s ih =>
    rw [splitWhitespace]
    split_ifs
    · exact ih
    · exact List.cons_ne_nil _ _
    · rwa [Ne, List.modifyHead_eq_nil_iff]

/-- White space at the front makes the first field empty. -/
private theorem splitWhitespace_of_blank (h : isJsWhitespace u = true) :
    ∃ rest, splitWhitespace (u :: s) = [] :: rest := by
  induction s generalizing u with
  | nil => exact ⟨[[]], by rw [splitWhitespace, if_pos h]; rfl⟩
  | cons v s ih =>
    rw [splitWhitespace, if_pos h, List.head?_cons, Option.any_some]
    by_cases hv : isJsWhitespace v = true
    · rw [if_pos hv]
      exact ih hv
    · rw [if_neg hv]
      exact ⟨_, rfl⟩

/-- Anything else at the front belongs to the first field. -/
private theorem splitWhitespace_of_nonblank (h : ¬isJsWhitespace u = true) :
    ∃ field rest, splitWhitespace (u :: s) = (u :: field) :: rest := by
  obtain ⟨field, rest, hfields⟩ := List.exists_cons_of_ne_nil (splitWhitespace_ne_nil s)
  exact ⟨field, rest, by rw [splitWhitespace, if_neg h, hfields]; rfl⟩

/-- The fields of the host are those of the desktop that are not empty. -/
private theorem fields_asciiChar (h : IsPrintable s) : Text.fields (s.map asciiChar) =
    ((splitWhitespace s).filter fun field => !field.isEmpty).map (·.map asciiChar) := by
  induction s with
  | nil => rfl
  | cons u s ih =>
    obtain ⟨hu, hs⟩ := List.forall_mem_cons.1 h
    have hblank := isAsciiWhitespace_asciiChar hu
    rw [List.map_cons, Text.fields.eq_def]
    dsimp only
    rw [hblank]
    by_cases hwhite : isJsWhitespace u = true
    · rw [if_pos hwhite, ih hs, splitWhitespace, if_pos hwhite]
      by_cases hnext : s.head?.any isJsWhitespace = true
      · rw [if_pos hnext]
      · rw [if_neg hnext]
        rfl
    · rw [if_neg hwhite, splitWhitespace, if_neg hwhite]
      cases s with
      | nil => rfl
      | cons v s =>
        rw [List.map_cons] at ih ⊢
        dsimp only
        rw [ih hs, isAsciiWhitespace_asciiChar (hs v List.mem_cons_self)]
        by_cases hv : isJsWhitespace v = true
        · obtain ⟨rest, hrest⟩ := splitWhitespace_of_blank (s := s) hv
          rw [if_pos hv, hrest]
          rfl
        · obtain ⟨field, rest, hrest⟩ := splitWhitespace_of_nonblank (s := s) hv
          rw [if_neg hv, hrest]
          rfl

private theorem mem_sshAlgorithms {algorithm : JsString} (h : algorithm ∈ supportedSshAlgorithms)
    (hascii : ∀ u ∈ algorithm, u < 128) :
    asciiText algorithm ∈ LinuxInstallOptions.sshAlgorithms := by
  obtain ⟨name, hname, rfl⟩ := List.mem_map.1 h
  have hdecode := decodeUtf16_of_ascii hascii
  rw [decodeUtf16_encodeUtf16, Option.some_inj] at hdecode
  rwa [← hdecode]

private theorem isEncoded_asciiChar (h : isEncodedUnit u = true) : ((asciiChar u).isAlphanum ||
    asciiChar u == '+' || asciiChar u == '/' || asciiChar u == '=') = true := by
  simp only [isEncodedUnit, Bool.or_eq_true, beq_iff_eq] at h
  rcases h with ((((h | h) | h) | rfl) | rfl) | rfl
  · rw [Char.isAlphanum, Char.isAlpha, isUpper_asciiChar h]
    rfl
  · rw [isAlphanum_asciiChar (by rw [h, Bool.true_or])]
    rfl
  · rw [isAlphanum_asciiChar (by rw [h, Bool.or_true])]
    rfl
  · rfl
  · rfl
  · rfl

/-- The fields of a string consist of its code units. -/
private theorem forall_mem_splitWhitespace {P : UInt16 → Prop} (h : ∀ u ∈ s, P u) :
    ∀ field ∈ splitWhitespace s, ∀ u ∈ field, P u := by
  induction s with
  | nil =>
    intro field hfield
    rw [List.mem_singleton.1 hfield]
    exact fun _ hu => absurd hu List.not_mem_nil
  | cons u s ih =>
    obtain ⟨hu, hs⟩ := List.forall_mem_cons.1 h
    rw [splitWhitespace]
    split_ifs
    · exact ih hs
    · exact List.forall_mem_cons.2 ⟨fun _ h => absurd h List.not_mem_nil, ih hs⟩
    · obtain ⟨field, rest, hfields⟩ := List.exists_cons_of_ne_nil (splitWhitespace_ne_nil s)
      have hih := ih hs
      rw [hfields] at hih ⊢
      obtain ⟨hfield, hrest⟩ := List.forall_mem_cons.1 hih
      exact List.forall_mem_cons.2 ⟨List.forall_mem_cons.2 ⟨hu, hfield⟩, hrest⟩

/-- The host accepts a key that the desktop accepts. -/
theorem validSshPublicKey_of_form (h : validSshPublicKey key = true) :
    (∀ u ∈ key, u < 128) ∧ LinuxInstallOptions.validSshPublicKey (asciiText key) = true := by
  rw [validSshPublicKey] at h
  split_ifs at h with hrefused
  simp only [Bool.or_eq_true, List.isEmpty_iff, decide_eq_true_eq, Bool.not_eq_true', not_or,
    Bool.not_eq_false, List.all_eq_true, Bool.and_eq_true] at hrefused
  obtain ⟨⟨hne, hsize⟩, hprintable⟩ := hrefused
  have hprint : IsPrintable key := hprintable
  have hascii := hprint.ascii
  have hfields := fields_asciiChar hprint
  have hunits := forall_mem_splitWhitespace hascii
  refine ⟨hascii, ?_⟩
  rcases hsplit : splitWhitespace key with _ | ⟨algorithm, _ | ⟨encoded, rest⟩⟩
  · rw [hsplit] at h
    cases h
  · rw [hsplit] at h
    cases h
  rw [hsplit] at h hfields hunits
  simp only [Bool.and_eq_true, Bool.not_eq_true', decide_eq_true_eq, List.contains_iff_mem] at h
  obtain ⟨⟨⟨⟨halgorithm, hencoded⟩, hsupported⟩, hlength⟩, hall⟩ := h
  have hencodedAscii := hunits encoded (List.mem_cons_of_mem _ List.mem_cons_self)
  have hhost : Text.splitAsciiWhitespace (asciiText key) =
      asciiText algorithm :: asciiText encoded ::
      ((rest.filter fun field => !field.isEmpty).map (·.map asciiChar)).map String.ofList := by
    rw [Text.splitAsciiWhitespace, toList_asciiText, hfields,
      List.filter_cons_of_pos (by rw [halgorithm, Bool.not_false]),
      List.filter_cons_of_pos (by rw [hencoded, Bool.not_false])]
    rfl
  have haccept : ((asciiText key).isEmpty || 16 * 1024 < (asciiText key).utf8ByteSize ||
      !(asciiText key).toList.all Text.isAscii ||
      (asciiText key).toList.any fun c => c == '\r' || c == '\n' || c.toNat == 0) = false := by
    have hall : ∀ n < 127, 32 ≤ n → Text.isAscii (Char.ofNat n) = true ∧
        (Char.ofNat n == '\r' || Char.ofNat n == '\n' || (Char.ofNat n).toNat == 0) = false := by
      decide
    have hchar : ∀ u ∈ key, Text.isAscii (asciiChar u) = true ∧
        (asciiChar u == '\r' || asciiChar u == '\n' || (asciiChar u).toNat == 0) = false := by
      intro u hu
      have hlow : 32 ≤ u.toNat := UInt16.le_iff_toNat_le.1 (hprint u hu).1
      have hhigh : u.toNat ≤ 126 := UInt16.le_iff_toNat_le.1 (hprint u hu).2
      exact hall u.toNat (by omega) hlow
    have hsizeText := utf8ByteSize_asciiText hascii
    have hpos : 0 < key.length := List.length_pos_iff.2 hne
    have hempty : (asciiText key).isEmpty = false := by
      rw [← Bool.not_eq_true, String.isEmpty_iff]
      intro hnil
      rw [hnil] at hsizeText
      rw [← hsizeText] at hpos
      exact absurd hpos (by decide)
    rw [hempty, toList_asciiText, List.all_map, List.any_map, hsizeText]
    simp only [Bool.or_eq_false_iff, Bool.not_eq_false', List.all_eq_true, List.any_eq_false,
      decide_eq_false_iff_not, Function.comp_apply, Bool.not_eq_true]
    exact ⟨⟨⟨trivial, hsize⟩, fun u hu => (hchar u hu).1⟩,
      fun u hu => by simpa using (hchar u hu).2⟩
  rw [LinuxInstallOptions.validSshPublicKey, haccept, if_neg Bool.false_ne_true, hhost]
  dsimp only
  simp only [Bool.and_eq_true, decide_eq_true_eq, List.contains_iff_mem]
  refine ⟨⟨mem_sshAlgorithms hsupported (hunits algorithm List.mem_cons_self), ?_⟩, ?_⟩
  · rwa [utf8ByteSize_asciiText hencodedAscii]
  · rw [toList_asciiText, List.all_map, List.all_eq_true]
    exact fun u hu => isEncoded_asciiChar (List.all_eq_true.1 hall u hu)

/-- Distinct valid keys pass the loop of the host. -/
private theorem checkSshKeys_eq_ok {seen keys : List String} {index : ℕ}
    (hvalid : ∀ key ∈ keys, LinuxInstallOptions.validSshPublicKey key = true) (hnodup : keys.Nodup)
    (hseen : ∀ key ∈ keys, key ∉ seen) :
    LinuxInstallOptions.checkSshKeys seen index keys = .ok () := by
  induction keys generalizing seen index with
  | nil => rfl
  | cons key keys ih =>
    obtain ⟨hkey, hkeys⟩ := List.forall_mem_cons.1 hvalid
    obtain ⟨hnew, hrest⟩ := List.nodup_cons.1 hnodup
    obtain ⟨hkeySeen, hkeysSeen⟩ := List.forall_mem_cons.1 hseen
    rw [LinuxInstallOptions.checkSshKeys, hkey, if_neg (by decide),
      if_neg fun h => hkeySeen (List.contains_iff_mem.1 h)]
    refine ih hkeys hrest fun other hother hmem => ?_
    rcases List.mem_cons.1 hmem with rfl | hmem
    · exact hnew hother
    · exact hkeysSeen other hother hmem

private theorem mapM_decodeUtf16 {keys : List JsString} (h : ∀ key ∈ keys, ∀ u ∈ key, u < 128) :
    keys.mapM decodeUtf16 = some (keys.map asciiText) := by
  induction keys with
  | nil => rfl
  | cons key keys ih =>
    obtain ⟨hkey, hkeys⟩ := List.forall_mem_cons.1 h
    rw [List.mapM_cons, decodeUtf16_of_ascii hkey, ih hkeys]
    rfl

/-- The host accepts keys that the desktop accepts. -/
theorem keys_of_form {keys : List JsString} (h : sshKeyErrors keys = []) :
    keys.mapM decodeUtf16 = some (keys.map asciiText) ∧
      ((keys.map asciiText).isEmpty || 16 < (keys.map asciiText).length) = false ∧
      LinuxInstallOptions.checkSshKeys [] 0 (keys.map asciiText) = .ok () := by
  rw [sshKeyErrors] at h
  split_ifs at h with hcount hinvalid hduplicate
  have hvalid : ∀ key ∈ keys, validSshPublicKey key = true := by
    simpa using hinvalid
  have hascii : ∀ key ∈ keys, ∀ u ∈ key, u < 128 := fun key hkey =>
    (validSshPublicKey_of_form (hvalid key hkey)).1
  have hnodup : keys.Nodup := by
    have hsame := (List.dedup_sublist keys).eq_of_length (not_not.1 hduplicate)
    exact List.dedup_eq_self.1 hsame
  refine ⟨mapM_decodeUtf16 hascii, ?_, checkSshKeys_eq_ok ?_ ?_ fun _ _ => List.not_mem_nil⟩
  · rw [Bool.or_eq_false_iff, List.length_map, List.isEmpty_map, decide_eq_false_iff_not,
      List.isEmpty_eq_false_iff, ← List.length_pos_iff]
    simp only [Bool.or_eq_true, decide_eq_true_eq, not_or] at hcount
    omega
  · intro text htext
    obtain ⟨key, hkey, rfl⟩ := List.mem_map.1 htext
    exact (validSshPublicKey_of_form (hvalid key hkey)).2
  · exact hnodup.map_on fun key hkey other hother heq =>
      asciiText_inj (hascii key hkey) (hascii other hother) heq

end Keys

/-! ### The digits of the MAC address -/

private theorem filter_colonPairs {p : Char → Bool} (h : p ':' = false) (l : List Char) :
    (colonPairs l).filter p = l.filter p := by
  induction l using colonPairs.induct with
  | case1 a b c l ih =>
    simp only [colonPairs, List.filter_cons, h, Bool.false_eq_true, if_false] at ih ⊢
    rw [ih]
  | case2 l hl => rw [colonPairs.eq_2 l hl]

private theorem mem_of_mem_colonPairs {c : Char} {l : List Char} (h : c ∈ colonPairs l) :
    c = ':' ∨ c ∈ l := by
  induction l using colonPairs.induct with
  | case1 a b d l ih =>
    rw [colonPairs] at h
    rcases List.mem_cons.1 h with rfl | h
    · exact .inr List.mem_cons_self
    rcases List.mem_cons.1 h with rfl | h
    · exact .inr (List.mem_cons_of_mem _ List.mem_cons_self)
    rcases List.mem_cons.1 h with rfl | h
    · exact .inl rfl
    · exact (ih h).imp id fun hmem => List.mem_cons_of_mem _ (List.mem_cons_of_mem _ hmem)
  | case2 l hl =>
    rw [colonPairs.eq_2 l hl] at h
    exact .inr h

/-- The digits of a normalized address, as code units. -/
private theorem upperHex_spec {c : Char} (h : Text.isAsciiHexdigit c = true) :
    c.toUpper.toNat < 128 ∧ isHexUnit (UInt16.ofNat c.toUpper.toNat) = true ∧
      (isLowerUnit (lowerUnit (UInt16.ofNat c.toUpper.toNat)) ||
        isDigitUnit (lowerUnit (UInt16.ofNat c.toUpper.toNat))) = true := by
  have hall : ∀ n < 128, Text.isAsciiHexdigit (Char.ofNat n) = true →
      (Char.ofNat n).toUpper.toNat < 128 ∧
      isHexUnit (UInt16.ofNat (Char.ofNat n).toUpper.toNat) = true ∧
      (isLowerUnit (lowerUnit (UInt16.ofNat (Char.ofNat n).toUpper.toNat)) ||
        isDigitUnit (lowerUnit (UInt16.ofNat (Char.ofNat n).toUpper.toNat))) = true := by
    decide
  have hlt : c.toNat < 128 := by
    simp only [Text.isAsciiHexdigit, Bool.or_eq_true, Bool.and_eq_true, decide_eq_true_eq,
      Char.le_def, UInt32.le_iff_toNat_le, Char.isDigit, ge_iff_le] at h
    have hf : 'f'.val.toNat = 102 := by decide
    have hF : 'F'.val.toNat = 70 := by decide
    have h9 : '9'.val.toNat = 57 := by decide
    rw [Char.toNat]
    omega
  have hc := hall c.toNat hlt
  rw [Char.ofNat_toNat] at hc
  exact hc h

private theorem flatMap_utf16Units {l : List Char} (h : ∀ c ∈ l, c.toNat < 128) :
    l.flatMap utf16Units = l.map fun c => UInt16.ofNat c.toNat := by
  induction l with
  | nil => rfl
  | cons c l ih =>
    obtain ⟨hc, hl⟩ := List.forall_mem_cons.1 h
    rw [List.flatMap_cons, ih hl, utf16Units, if_pos (by omega), List.map_cons,
      List.singleton_append]

/-- The suffix consists of the last six digits of a normalized address. -/
private theorem deviceHostnameSuffix_spec {entry : RegisteredDevice} {value : String}
    (hmac : normalizeMacAddress value = .ok entry.device.macAddress) :
    (deviceHostnameSuffix entry).length = 6 ∧
      ∀ u ∈ deviceHostnameSuffix entry, (isLowerUnit u || isDigitUnit u) = true := by
  rw [normalizeMacAddress] at hmac
  split_ifs at hmac with hlength
  have haddress := Except.ok.inj hmac
  set hexadecimal := (value.toList.filter Text.isAsciiHexdigit).map Char.toUpper with hhex
  have hdigit : ∀ c ∈ hexadecimal, c.toNat < 128 ∧ isHexUnit (UInt16.ofNat c.toNat) = true ∧
      (isLowerUnit (lowerUnit (UInt16.ofNat c.toNat)) ||
        isDigitUnit (lowerUnit (UInt16.ofNat c.toNat))) = true := by
    intro c hc
    rw [hhex] at hc
    obtain ⟨d, hd, rfl⟩ := List.mem_map.1 hc
    exact upperHex_spec (List.mem_filter.1 hd).2
  have hascii : ∀ c ∈ colonPairs hexadecimal, c.toNat < 128 := by
    intro c hc
    rcases mem_of_mem_colonPairs hc with rfl | hc
    · decide
    · exact (hdigit c hc).1
  have hunits : (encodeUtf16 entry.device.macAddress).filter isHexUnit =
      hexadecimal.map fun c => UInt16.ofNat c.toNat := by
    have hself : hexadecimal.filter (isHexUnit ∘ fun c => UInt16.ofNat c.toNat) = hexadecimal :=
      List.filter_eq_self.2 fun c hc => (hdigit c hc).2.1
    rw [← haddress, encodeUtf16, String.toList_ofList, flatMap_utf16Units hascii, List.filter_map,
      filter_colonPairs (by decide), hself]
  have hsix : ((lastSix ((encodeUtf16 entry.device.macAddress).filter isHexUnit)).map
      lowerUnit).length = 6 := by
    rw [hunits, List.length_map, lastSix, List.length_drop, List.length_map]
    omega
  have hsuffix : deviceHostnameSuffix entry =
      (lastSix ((encodeUtf16 entry.device.macAddress).filter isHexUnit)).map lowerUnit := by
    rw [deviceHostnameSuffix]
    exact if_pos hsix
  rw [hsuffix]
  refine ⟨hsix, fun u hu => ?_⟩
  obtain ⟨v, hv, rfl⟩ := List.mem_map.1 hu
  rw [hunits] at hv
  obtain ⟨c, hc, rfl⟩ := List.mem_map.1 (List.mem_of_mem_drop hv)
  exact (hdigit c hc).2.2

/-- The host receives and accepts the options that are built from an accepted form, for every device
with a normalized MAC address. -/
theorem linuxInstallForm_accepted (form : LinuxInstallForm) (entry : RegisteredDevice)
    (hform : validateLinuxInstallForm form = [])
    (hmac : ∃ value, normalizeMacAddress value = .ok entry.device.macAddress) :
    ∃ options, (linuxInstallOptionsFor entry form).receive = some options ∧
      options.validate = .ok () := by
  obtain ⟨value, hvalue⟩ := hmac
  obtain ⟨hlength, hsuffix⟩ := deviceHostnameSuffix_spec hvalue
  rw [validateLinuxInstallForm, List.append_eq_nil_iff, List.append_eq_nil_iff] at hform
  obtain ⟨⟨hprefixForm, husernameForm⟩, hkeysForm⟩ := hform
  have hname : validHostnamePrefix form.hostnamePrefix = true := by
    by_contra hnot
    rw [if_pos (by simpa using hnot)] at hprefixForm
    cases hprefixForm
  have husername : validLinuxUsername form.username = true := by
    by_contra hnot
    rw [if_pos (by simpa using hnot)] at husernameForm
    cases husernameForm
  obtain ⟨hostDecode, hostValid⟩ := validLinuxHostname_of_suffix hname hlength hsuffix
  obtain ⟨userDecode, userValid⟩ := validLinuxUsername_of_form husername
  obtain ⟨keysDecode, hcount, hcheck⟩ := keys_of_form hkeysForm
  refine ⟨{
    hostname := asciiText (form.hostnamePrefix ++ 45 :: deviceHostnameSuffix entry)
    username := asciiText form.username
    sshAuthorizedKeys := (parseLinuxSshAuthorizedKeys form.sshPublicKeys).map asciiText }, ?_, ?_⟩
  · rw [UiLinuxInstallOptions.receive, linuxInstallOptionsFor]
    dsimp only
    rw [hostDecode, userDecode, keysDecode]
    rfl
  · rw [LinuxInstallOptions.validate, hostValid, userValid, hcount, hcheck]
    rfl

/-- A form with one key, for the device of the laboratory. -/
theorem linuxInstallForm_accepted_lab : ∃ options,
    (linuxInstallOptionsFor
      { device := (labInventory "02:1A:2B:3C:4D:5E").toDevice 1 "192.168.10.20" 0
        agentVersion := "1.0.0"
        firstSeenAt := 0
        online := true }
      { hostnamePrefix := encodeUtf16 "lab"
        username := encodeUtf16 "admin"
        sshPublicKeys := encodeUtf16 " ssh-ed25519 AAAAC3NzaC1lZDI1NTE5 a\r\n" }).receive =
          some options ∧
      options.validate = .ok () :=
  linuxInstallForm_accepted _ _ (by decide +kernel) ⟨"02-1a-2b-3c-4d-5e", by decide +kernel⟩

end EasyDeployMesh
