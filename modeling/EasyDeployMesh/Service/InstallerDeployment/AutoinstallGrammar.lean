import EasyDeployMesh.Foundations.Json
import EasyDeployMesh.Foundations.Template
import EasyDeployMesh.Service.InstallerDeployment.GuardReplay

/-!
# The grammar of the autoinstall configuration

The configuration that an authorized guard receives is a fixed sequence of lines. Its holes are the
host name, the user name, the SSH keys and the path of the disk, each written as a JSON string on
one line, and texts that the service generates. Only the number of the keys changes the number of
lines.

## Main definitions

* `EasyDeployMesh.AutoinstallHole`, `EasyDeployMesh.AutoinstallHole.Admits`: the holes and what they
  hold.
* `EasyDeployMesh.autoinstallForms`: the lines of the template.

## Main results

* `EasyDeployMesh.fitsTemplate_of_renderFinalAutoinstall`: a rendered configuration is the template
  with admitted texts in its holes.
-/

namespace EasyDeployMesh

open Foundations

/-! ### The template -/

/-- What the template leaves open. -/
inductive AutoinstallHole
  | hostname
  | username
  | sshKey (index : ℕ)
  | targetPath
  | token
  | completionUrl
  | attemptId
  | eventUrl
  deriving DecidableEq

/-- The text is a JSON string of printable characters that stands for the value. -/
def IsScalarOf (value text : String) : Prop :=
  Json.decodeString text = some value ∧ text.toList.all Json.isPrintable = true

/-- The given values as JSON strings, and the generated texts as they are. -/
def AutoinstallHole.Admits (binding : SessionBinding) (token : String)
    (options : LinuxInstallOptions) (targetPath : String) : AutoinstallHole → String → Prop
  | .hostname, text => IsScalarOf options.hostname text
  | .username, text => IsScalarOf options.username text
  | .sshKey index, text =>
    ∃ key, options.sshAuthorizedKeys[index]? = some key ∧ IsScalarOf key text
  | .targetPath, text => IsScalarOf targetPath text
  | .token, text => text = token
  | .completionUrl, text => text = sessionUrl binding.baseUrl binding.sessionId ++ "/first-boot"
  | .attemptId, text => text = binding.attemptId.hyphenated
  | .eventUrl, text => text = sessionUrl binding.baseUrl binding.sessionId ++ "/events"

/-- The lines for an installation with the given number of keys, up to the storage section. -/
def identityForms (keys : ℕ) : List (LineForm AutoinstallHole) :=
  ["#cloud-config", "autoinstall:", "  version: 1", "  refresh-installer:", "    update: false",
   "  locale: en_US.UTF-8", "  keyboard:", "    layout: us", "  identity:"].map .fixed ++
  [{ before := "    hostname: ", hole := some .hostname, after := "" },
   { before := "    username: ", hole := some .username, after := "" }] ++
  ["    password: \"!\"", "  ssh:", "    install-server: true", "    allow-pw: false",
   "    authorized-keys:"].map .fixed ++
  (List.range keys).map (fun index =>
    { before := "      - ", hole := some (.sshKey index), after := "" }) ++
  ["  network:", "    version: 2", "    ethernets:", "      deployment-nic:", "        match:",
   "          name: \"e*\"", "        dhcp4: true"].map .fixed

/-- The lines of the storage section. -/
def storageForms : List (LineForm AutoinstallHole) :=
  ["  storage:", "    config:", "      - id: target-disk", "        type: disk"].map .fixed ++
  [{ before := "        path: ", hole := some .targetPath, after := "" }] ++
  ["        ptable: gpt", "        wipe: superblock-recursive", "        preserve: false",
   "        grub_device: true", "      - id: efi-partition", "        type: partition",
   "        device: target-disk", "        size: 1G", "        flag: boot",
   "        grub_device: true", "      - id: efi-format", "        type: format",
   "        volume: efi-partition", "        fstype: fat32", "      - id: efi-mount",
   "        type: mount", "        device: efi-format", "        path: /boot/efi",
   "      - id: root-partition", "        type: partition", "        device: target-disk",
   "        size: -1", "      - id: root-format", "        type: format",
   "        volume: root-partition", "        fstype: ext4", "      - id: root-mount",
   "        type: mount", "        device: root-format", "        path: /"].map .fixed

/-- The lines of the program that reports the first boot. -/
def firstBootForms : List (LineForm AutoinstallHole) :=
  ["#!/usr/bin/python3", "import json", "import os", "import pathlib", "import urllib.request", "",
   "token_path = pathlib.Path(\"/etc/easydeploymesh/installer-token\")",
   "token = token_path.read_text().strip()", "request = urllib.request.Request("].map .fixed ++
  [{ before := "    \"", hole := some .completionUrl, after := "\"," },
   { before := "    data=json.dumps(\x7b\"attemptId\": \"", hole := some .attemptId,
     after := "\"\x7d).encode()," }] ++
  [{ before := "    headers=\x7b\"Authorization\": \"Bearer \" + token, ", hole := none,
     after := "\"Content-Type\": \"application/json\"\x7d," }] ++
  ["    method=\"POST\",", ")", "with urllib.request.urlopen(request, timeout=30) as response:",
   "    if response.status not in (200, 204):",
   "        raise RuntimeError(\"completion was not accepted\")",
   "token_path.unlink(missing_ok=True)"].map .fixed ++
  [{ before := "pathlib.Path(\"/etc/systemd/system/multi-user.target.wants/", hole := none,
     after := "easydeploymesh-first-boot.service\").unlink(missing_ok=True)" }]

/-- The lines of the program that reports an event, up to its kind. -/
def eventUrlForms : List (LineForm AutoinstallHole) :=
  ["import json", "import urllib.request", "",
   "request = urllib.request.Request("].map .fixed ++
  [{ before := "    \"", hole := some .eventUrl, after := "\"," }]

/-- The lines of the program that reports an event, behind its kind. -/
def eventTokenForms : List (LineForm AutoinstallHole) :=
  [.fixed "    headers=\x7b",
   { before := "        \"Authorization\": \"Bearer ", hole := some .token, after := "\"," }] ++
  ["        \"Content-Type\": \"application/json\",", "    \x7d,", "    method=\"POST\",", ")",
   "with urllib.request.urlopen(request, timeout=30) as response:",
   "    if response.status not in (200, 204):",
   "        raise RuntimeError(\"installer event was not accepted\")"].map .fixed

/-- The lines of the program that reports an event of one kind. -/
def eventForms (kind : String) : List (LineForm AutoinstallHole) :=
  eventUrlForms ++
    [.fixed ("    data=json.dumps(\x7b\"kind\": \"" ++ kind ++ "\"\x7d).encode(),")] ++
    eventTokenForms

/-- The lines of the unit that runs the first-boot program. -/
def serviceForms : List (LineForm AutoinstallHole) :=
  ["[Unit]", "Description=EasyDeployMesh first-boot completion", "After=network-online.target",
   "Wants=network-online.target", "ConditionPathExists=/etc/easydeploymesh/installer-token", "",
   "[Service]", "Type=oneshot", "ExecStart=/usr/local/sbin/easydeploymesh-first-boot",
   "Restart=on-failure", "RestartSec=30", "", "[Install]",
   "WantedBy=multi-user.target"].map .fixed

/-- The lines behind the storage section. -/
def commandForms : List (LineForm AutoinstallHole) :=
  ["  late-commands:", "    - |", "        install -d -m 0700 /target/etc/easydeploymesh",
   "        cat > /target/etc/easydeploymesh/installer-token <<'EDM_TOKEN'"].map .fixed ++
  [{ before := "        ", hole := some .token, after := "" }] ++
  ["        EDM_TOKEN", "        chmod 0600 /target/etc/easydeploymesh/installer-token",
   "        install -d -m 0755 /target/etc/systemd/system/multi-user.target.wants",
   "        cat > /target/usr/local/sbin/easydeploymesh-first-boot <<'EDM_CALLBACK'"].map .fixed ++
  firstBootForms.map (.indent 8) ++
  ["        EDM_CALLBACK", "        chmod 0700 /target/usr/local/sbin/easydeploymesh-first-boot",
   "        cat > /target/etc/systemd/system/easydeploymesh-first-boot.service <<'EDM_SERVICE'"].map
     .fixed ++
  serviceForms.map (.indent 8) ++
  ["        EDM_SERVICE"].map .fixed ++
  [{ before := "        ln -sf ../easydeploymesh-first-boot.service ", hole := none,
     after :=
       "/target/etc/systemd/system/multi-user.target.wants/easydeploymesh-first-boot.service" }] ++
  ["        cat > /run/easydeploymesh-awaiting-first-boot.py <<'EDM_AWAITING'"].map .fixed ++
  (eventForms "awaiting_first_boot").map (.indent 8) ++
  ["        EDM_AWAITING", "        python3 /run/easydeploymesh-awaiting-first-boot.py",
   "        rm -f /run/easydeploymesh-awaiting-first-boot.py", "  error-commands:", "    - |",
   "        cat > /run/easydeploymesh-install-failed.py <<'EDM_FAILED'"].map .fixed ++
  (eventForms "failed").map (.indent 8) ++
  ["        EDM_FAILED", "        python3 /run/easydeploymesh-install-failed.py || true",
   "        rm -f /run/easydeploymesh-install-failed.py", "  shutdown: reboot"].map .fixed

/-- The lines of the template for the given number of keys. -/
def autoinstallForms (keys : ℕ) : List (LineForm AutoinstallHole) :=
  identityForms keys ++ storageForms ++ commandForms

/-- A base URL whose host is written as a socket address. -/
def IsSocketUrl (baseUrl : String) : Prop :=
  ∃ address : String, baseUrl = "http://" ++ address ∧
    address.toList.all (fun c => Text.isAsciiHexdigit c || ".:[]%".toList.contains c) = true

/-! ### Generated texts -/

section

variable {binding : SessionBinding} {token : String} {options : LinuxInstallOptions}
  {targetPath : String}

private theorem notMem_of_all {p : Char → Bool} {l : List Char} {c : Char} (hc : p c = false)
    (h : l.all p = true) : c ∉ l := fun hmem =>
  Bool.false_ne_true (hc.symm.trans (List.all_eq_true.mp h c hmem))

/-- A character that begins no placeholder and ends no line. -/
private def isUrlCharacter (c : Char) : Bool := c != '_' && c != '\n' && c != '\r'

private theorem isUrlCharacter_hexDigits (k n : ℕ) :
    (Text.hexDigits k n).all isUrlCharacter = true := by
  have hdigit : ∀ d < 16, isUrlCharacter (Text.hexDigit d) = true := by decide
  induction k with
  | zero => rfl
  | succ k ih =>
    rw [Text.hexDigits, List.all_cons, ih, hdigit _ (Nat.mod_lt _ (by decide))]
    rfl

private theorem isUrlCharacter_hyphenated (id : Uuid) :
    id.hyphenated.toList.all isUrlCharacter = true := by
  have hdigits := List.all_eq_true.mp (isUrlCharacter_hexDigits 32 id.toNat)
  have htake (m n : ℕ) : (((Text.hexDigits 32 id.toNat).drop m).take n).all isUrlCharacter = true :=
    List.all_eq_true.mpr fun c hc => hdigits c (List.mem_of_mem_drop (List.mem_of_mem_take hc))
  have hfirst : ((Text.hexDigits 32 id.toNat).take 8).all isUrlCharacter = true :=
    List.all_eq_true.mpr fun c hc => hdigits c (List.mem_of_mem_take hc)
  have hlast : ((Text.hexDigits 32 id.toNat).drop 20).all isUrlCharacter = true :=
    List.all_eq_true.mpr fun c hc => hdigits c (List.mem_of_mem_drop hc)
  have hhyphen : isUrlCharacter '-' = true := by decide
  simp only [Uuid.hyphenated, String.toList_ofList, List.all_append, List.all_cons, hfirst, htake,
    hlast, hhyphen, Bool.and_self]

private theorem isUrlCharacter_sessionUrl (hurl : IsSocketUrl binding.baseUrl) {path : String}
    (hpath : path.toList.all isUrlCharacter = true) :
    (sessionUrl binding.baseUrl binding.sessionId ++ path).toList.all isUrlCharacter = true := by
  obtain ⟨address, haddress, hall⟩ := hurl
  have hhost : address.toList.all isUrlCharacter = true := by
    simp only [isUrlCharacter, List.all_eq_true, Bool.and_eq_true, bne_iff_ne]
    refine fun c hc => ⟨⟨?_, ?_⟩, ?_⟩
    · exact fun h => notMem_of_all (by decide) hall (h ▸ hc)
    · exact fun h => notMem_of_all (by decide) hall (h ▸ hc)
    · exact fun h => notMem_of_all (by decide) hall (h ▸ hc)
  have hscheme : "http://".toList.all isUrlCharacter = true := by decide
  have hroute : "/api/v1/install/sessions/".toList.all isUrlCharacter = true := by decide
  simp only [sessionUrl, haddress, String.toList_append, List.all_append, hscheme, hhost, hroute,
    isUrlCharacter_hyphenated, hpath, Bool.and_self]

/-- A character of a session token. -/
private def isTokenCharacter (c : Char) : Bool := c.isLower || c.isDigit || c == '_'

private theorem isTokenCharacter_generateSecret (first second : Uuid) :
    (generateSecret "easydeploymesh_installer" first second).toList.all isTokenCharacter =
      true := by
  have hdigits (k n : ℕ) : (Text.hexDigits k n).all isTokenCharacter = true := by
    have hdigit : ∀ d < 16, isTokenCharacter (Text.hexDigit d) = true := by decide
    induction k with
    | zero => rfl
    | succ k ih =>
      rw [Text.hexDigits, List.all_cons, ih, hdigit _ (Nat.mod_lt _ (by decide))]
      rfl
  have hlabel : "easydeploymesh_installer".toList.all isTokenCharacter = true := by decide
  have hseparator : "_".toList.all isTokenCharacter = true := by decide
  simp only [generateSecret, Uuid.simple, String.toList_append, String.toList_ofList,
    List.all_append, hlabel, hseparator, hdigits, Bool.and_self]

end

/-! ### The programs -/

/-- The placeholders of the programs. -/
private def placeholder : AutoinstallHole → String
  | .completionUrl => "__COMPLETION_URL__"
  | .attemptId => "__ATTEMPT_ID__"
  | .eventUrl => "__EVENT_URL__"
  | .token => "__SESSION_TOKEN__"
  | _ => ""

private theorem firstBootScript_eq :
    firstBootScript = Text.unlines (firstBootForms.map (LineForm.fill placeholder)) := by
  simp only [firstBootForms, List.map_append, LineForm.map_fill_fixed]
  simp only [firstBootScript, List.map_cons, List.map_nil, LineForm.fill, placeholder,
    String.reduceAppend]
  rfl

private theorem installerEventScript_eq :
    installerEventScript =
      Text.unlines ((eventForms "__EVENT_KIND__").map (LineForm.fill placeholder)) := by
  rw [eventForms, eventUrlForms, eventTokenForms]
  simp only [List.map_append, LineForm.map_fill_fixed]
  rfl

section

variable {url attempt token : String} {text : AutoinstallHole → String}

variable (text) in
private theorem fill_firstBootScript (hurl : url.toList.all isUrlCharacter = true)
    (hcompletion : text .completionUrl = url) (hattempt : text .attemptId = attempt) :
    Text.replaceAll "__ATTEMPT_ID__" attempt (Text.replaceAll "__COMPLETION_URL__" url
      firstBootScript) = Text.unlines (firstBootForms.map (LineForm.fill text)) := by
  have hcompletionUrl : ∀ form ∈ firstBootForms,
      Text.replaceAll "__COMPLETION_URL__" url (form.fill placeholder) =
        form.fill (Function.update placeholder .completionUrl url) := by
    simp only [firstBootForms, List.forall_mem_append, List.forall_mem_cons, List.not_mem_nil,
      false_implies, implies_true, and_true]
    refine ⟨⟨⟨⟨?_, ?_, ?_⟩, ?_⟩, ?_⟩, ?_⟩
    · refine Text.replaceAll_fill_of_mem_map_fixed (c := 'U') (by decide) ?_
      repeat refine Text.forall_notMem_cons (by decide) ?_
      exact List.forall_mem_nil _
    · exact Text.replaceAll_hole (c := '_') (by decide) (by decide) (by decide)
    · refine Text.replaceAll_fill_of_notMem (c := 'U') (by decide) (by decide) (by decide) ?_
      rintro hole ⟨⟩
      exact ⟨rfl, by decide⟩
    · exact Text.replaceAll_fill_of_notMem (c := 'U') (by decide) (Text.notMem_ofList (by decide))
        (Text.notMem_ofList (by decide)) nofun
    · refine Text.replaceAll_fill_of_mem_map_fixed (c := 'U') (by decide) ?_
      repeat refine Text.forall_notMem_cons (by decide) ?_
      exact List.forall_mem_nil _
    · exact Text.replaceAll_fill_of_notMem (c := 'U') (by decide) (Text.notMem_ofList (by decide))
        (Text.notMem_ofList (by decide)) nofun
  have hattemptId : ∀ form ∈ firstBootForms,
      Text.replaceAll "__ATTEMPT_ID__" attempt
        (form.fill (Function.update placeholder .completionUrl url)) = form.fill text := by
    simp only [firstBootForms, List.forall_mem_append, List.forall_mem_cons, List.not_mem_nil,
      false_implies, implies_true, and_true]
    refine ⟨⟨⟨⟨?_, ?_, ?_⟩, ?_⟩, ?_⟩, ?_⟩
    · refine Text.replaceAll_fill_of_mem_map_fixed (c := 'D') (by decide) ?_
      repeat refine Text.forall_notMem_cons (by decide) ?_
      exact List.forall_mem_nil _
    · refine Text.replaceAll_fill_of_notMem (c := '_') (by decide) (by decide) (by decide) ?_
      rintro hole ⟨⟩
      exact ⟨hcompletion, notMem_of_all (by decide) hurl⟩
    · simp only [LineForm.fill, hattempt]
      exact Text.replaceAll_hole (c := '_') (by decide) (by decide) (by decide)
    · exact Text.replaceAll_fill_of_notMem (c := 'D') (by decide) (Text.notMem_ofList (by decide))
        (Text.notMem_ofList (by decide)) nofun
    · refine Text.replaceAll_fill_of_mem_map_fixed (c := 'D') (by decide) ?_
      repeat refine Text.forall_notMem_cons (by decide) ?_
      exact List.forall_mem_nil _
    · exact Text.replaceAll_fill_of_notMem (c := 'D') (by decide) (Text.notMem_ofList (by decide))
        (Text.notMem_ofList (by decide)) nofun
  rw [firstBootScript_eq, Text.replaceAll_unlines_fill (by decide) (by decide) hcompletionUrl,
    Text.replaceAll_unlines_fill (by decide) (by decide) hattemptId]

variable (text) in
/-- The kind stands on a line of its own. -/
private theorem fill_installerEventScript (hurl : url.toList.all isUrlCharacter = true)
    (htoken : token.toList.all isTokenCharacter = true) (hevent : text .eventUrl = url)
    (hsession : text .token = token) (kind : String) :
    Text.replaceAll "__EVENT_KIND__" kind (Text.replaceAll "__SESSION_TOKEN__" token
      (Text.replaceAll "__EVENT_URL__" url installerEventScript)) =
      Text.unlines ((eventForms kind).map (LineForm.fill text)) := by
  have heventUrl : ∀ form ∈ eventForms "__EVENT_KIND__",
      Text.replaceAll "__EVENT_URL__" url (form.fill placeholder) =
        form.fill (Function.update placeholder .eventUrl url) := by
    simp only [eventForms, eventUrlForms, eventTokenForms, List.forall_mem_append,
      List.forall_mem_cons, List.not_mem_nil, false_implies, implies_true, and_true]
    refine ⟨⟨⟨?_, ?_⟩, ?_⟩, ⟨?_, ?_⟩, ?_⟩
    · refine Text.replaceAll_fill_of_mem_map_fixed (c := 'U') (by decide) ?_
      repeat refine Text.forall_notMem_cons (by decide) ?_
      exact List.forall_mem_nil _
    · exact Text.replaceAll_hole (c := '_') (by decide) (by decide) (by decide)
    · exact Text.replaceAll_fill_of_notMem (c := 'U') (by decide) (by decide) (by decide) nofun
    · exact Text.replaceAll_fill_of_notMem (c := 'U') (by decide) (by decide) (by decide) nofun
    · refine Text.replaceAll_fill_of_notMem (c := 'U') (by decide) (by decide) (by decide) ?_
      rintro hole ⟨⟩
      exact ⟨rfl, by decide⟩
    · refine Text.replaceAll_fill_of_mem_map_fixed (c := 'U') (by decide) ?_
      repeat refine Text.forall_notMem_cons (by decide) ?_
      exact List.forall_mem_nil _
  have hsessionToken : ∀ form ∈ eventForms "__EVENT_KIND__",
      Text.replaceAll "__SESSION_TOKEN__" token
        (form.fill (Function.update placeholder .eventUrl url)) = form.fill text := by
    simp only [eventForms, eventUrlForms, eventTokenForms, List.forall_mem_append,
      List.forall_mem_cons, List.not_mem_nil, false_implies, implies_true, and_true]
    refine ⟨⟨⟨?_, ?_⟩, ?_⟩, ⟨?_, ?_⟩, ?_⟩
    · refine Text.replaceAll_fill_of_mem_map_fixed (c := 'K') (by decide) ?_
      repeat refine Text.forall_notMem_cons (by decide) ?_
      exact List.forall_mem_nil _
    · refine Text.replaceAll_fill_of_notMem (c := '_') (by decide) (by decide) (by decide) ?_
      rintro hole ⟨⟩
      exact ⟨hevent, notMem_of_all (by decide) hurl⟩
    · exact Text.replaceAll_fill_of_notMem (c := 'S') (by decide) (by decide) (by decide) nofun
    · exact Text.replaceAll_fill_of_notMem (c := 'K') (by decide) (by decide) (by decide) nofun
    · simp only [LineForm.fill, hsession]
      exact Text.replaceAll_hole (c := '_') (by decide) (by decide) (by decide)
    · refine Text.replaceAll_fill_of_mem_map_fixed (c := 'K') (by decide) ?_
      repeat refine Text.forall_notMem_cons (by decide) ?_
      exact List.forall_mem_nil _
  have hhead : ∀ form ∈ eventUrlForms,
      Text.replaceAll "__EVENT_KIND__" kind (form.fill text) = form.fill text := by
    simp only [eventUrlForms, List.forall_mem_append, List.forall_mem_singleton]
    refine ⟨?_, ?_⟩
    · refine Text.replaceAll_fill_of_mem_map_fixed (c := 'K') (by decide) ?_
      repeat refine Text.forall_notMem_cons (by decide) ?_
      exact List.forall_mem_nil _
    · refine Text.replaceAll_fill_of_notMem (c := '_') (by decide) (by decide) (by decide) ?_
      rintro hole ⟨⟩
      exact ⟨rfl, hevent ▸ notMem_of_all (by decide) hurl⟩
  have htail : ∀ form ∈ eventTokenForms,
      Text.replaceAll "__EVENT_KIND__" kind (form.fill text) = form.fill text := by
    simp only [eventTokenForms, List.forall_mem_append, List.forall_mem_cons, List.not_mem_nil,
      false_implies, implies_true, and_true]
    refine ⟨⟨?_, ?_⟩, ?_⟩
    · exact Text.replaceAll_fill_of_notMem (c := 'K') (by decide) (by decide) (by decide) nofun
    · refine Text.replaceAll_fill_of_notMem (c := 'K') (by decide) (by decide) (by decide) ?_
      rintro hole ⟨⟩
      exact ⟨rfl, hsession ▸ notMem_of_all (by decide) htoken⟩
    · refine Text.replaceAll_fill_of_mem_map_fixed (c := 'K') (by decide) ?_
      repeat refine Text.forall_notMem_cons (by decide) ?_
      exact List.forall_mem_nil _
  have hkind : Text.replaceAll "__EVENT_KIND__" kind
      ("    data=json.dumps(\x7b\"kind\": \"" ++ "__EVENT_KIND__" ++ "\"\x7d).encode(),") =
      "    data=json.dumps(\x7b\"kind\": \"" ++ kind ++ "\"\x7d).encode()," :=
    Text.replaceAll_hole (c := '_') (by decide) (by decide) (by decide)
  rw [installerEventScript_eq, Text.replaceAll_unlines_fill (by decide) (by decide) heventUrl,
    Text.replaceAll_unlines_fill (by decide) (by decide) hsessionToken,
    Text.replaceAll_unlines (by decide) (by decide), List.map_map, eventForms, eventForms]
  simp only [List.map_append, List.map_cons, List.map_nil, Function.comp_apply,
    LineForm.fill_fixed, hkind]
  rw [← List.map_congr_left hhead, ← List.map_congr_left htail]
  rfl

end

private theorem firstBootService_eq (text : AutoinstallHole → String) :
    firstBootService = Text.unlines (serviceForms.map (LineForm.fill text)) := by
  rw [serviceForms, LineForm.map_fill_fixed]
  rfl

/-! ### Single lines -/

private theorem isSingleLine_identityForms (keys : ℕ) :
    ∀ form ∈ identityForms keys, form.IsSingleLine := by
  simp only [identityForms, List.forall_mem_append, List.forall_mem_cons, List.not_mem_nil,
    false_implies, implies_true, and_true]
  refine ⟨⟨⟨⟨?_, ?_, ?_⟩, ?_⟩, ?_⟩, ?_⟩
  · refine LineForm.forall_isSingleLine_map_fixed ?_
    repeat refine Text.forall_isSingleLine_cons (by decide) ?_
    exact List.forall_mem_nil _
  · exact ⟨Text.isSingleLine_ofList (by decide), Text.isSingleLine_ofList (by decide)⟩
  · exact ⟨Text.isSingleLine_ofList (by decide), Text.isSingleLine_ofList (by decide)⟩
  · refine LineForm.forall_isSingleLine_map_fixed ?_
    repeat refine Text.forall_isSingleLine_cons (by decide) ?_
    exact List.forall_mem_nil _
  · intro form hform
    obtain ⟨index, -, rfl⟩ := List.mem_map.1 hform
    exact ⟨Text.isSingleLine_ofList (by decide), Text.isSingleLine_ofList (by decide)⟩
  · refine LineForm.forall_isSingleLine_map_fixed ?_
    repeat refine Text.forall_isSingleLine_cons (by decide) ?_
    exact List.forall_mem_nil _

private theorem isSingleLine_storageForms :
    ∀ form ∈ storageForms, form.IsSingleLine := by
  simp only [storageForms, List.forall_mem_append, List.forall_mem_cons, List.not_mem_nil,
    false_implies, implies_true, and_true]
  refine ⟨⟨?_, ?_⟩, ?_⟩
  · refine LineForm.forall_isSingleLine_map_fixed ?_
    repeat refine Text.forall_isSingleLine_cons (by decide) ?_
    exact List.forall_mem_nil _
  · exact ⟨Text.isSingleLine_ofList (by decide), Text.isSingleLine_ofList (by decide)⟩
  · refine LineForm.forall_isSingleLine_map_fixed ?_
    repeat refine Text.forall_isSingleLine_cons (by decide) ?_
    exact List.forall_mem_nil _

private theorem isSingleLine_firstBootForms :
    ∀ form ∈ firstBootForms, form.IsSingleLine := by
  simp only [firstBootForms, List.forall_mem_append, List.forall_mem_cons, List.not_mem_nil,
    false_implies, implies_true, and_true]
  refine ⟨⟨⟨⟨?_, ?_, ?_⟩, ?_⟩, ?_⟩, ?_⟩
  · refine LineForm.forall_isSingleLine_map_fixed ?_
    repeat refine Text.forall_isSingleLine_cons (by decide) ?_
    exact List.forall_mem_nil _
  · exact ⟨Text.isSingleLine_ofList (by decide), Text.isSingleLine_ofList (by decide)⟩
  · exact ⟨Text.isSingleLine_ofList (by decide), Text.isSingleLine_ofList (by decide)⟩
  · exact ⟨Text.isSingleLine_ofList (by decide), Text.isSingleLine_ofList (by decide)⟩
  · refine LineForm.forall_isSingleLine_map_fixed ?_
    repeat refine Text.forall_isSingleLine_cons (by decide) ?_
    exact List.forall_mem_nil _
  · exact ⟨Text.isSingleLine_ofList (by decide), Text.isSingleLine_ofList (by decide)⟩

private theorem isSingleLine_eventForms {kind : String} (h : Text.IsSingleLine kind) :
    ∀ form ∈ eventForms kind, form.IsSingleLine := by
  simp only [eventForms, eventUrlForms, eventTokenForms, List.forall_mem_append,
    List.forall_mem_cons, List.not_mem_nil, false_implies, implies_true, and_true]
  refine ⟨⟨⟨?_, ?_⟩, ?_⟩, ⟨?_, ?_⟩, ?_⟩
  · refine LineForm.forall_isSingleLine_map_fixed ?_
    repeat refine Text.forall_isSingleLine_cons (by decide) ?_
    exact List.forall_mem_nil _
  · exact ⟨Text.isSingleLine_ofList (by decide), Text.isSingleLine_ofList (by decide)⟩
  · exact ⟨(Text.IsSingleLine.append (Text.isSingleLine_ofList (by decide)) h).append
      (Text.isSingleLine_ofList (by decide)), Text.isSingleLine_ofList (by decide)⟩
  · exact ⟨Text.isSingleLine_ofList (by decide), Text.isSingleLine_ofList (by decide)⟩
  · exact ⟨Text.isSingleLine_ofList (by decide), Text.isSingleLine_ofList (by decide)⟩
  · refine LineForm.forall_isSingleLine_map_fixed ?_
    repeat refine Text.forall_isSingleLine_cons (by decide) ?_
    exact List.forall_mem_nil _

private theorem isSingleLine_serviceForms : ∀ form ∈ serviceForms, form.IsSingleLine := by
  refine LineForm.forall_isSingleLine_map_fixed ?_
  repeat refine Text.forall_isSingleLine_cons (by decide) ?_
  exact List.forall_mem_nil _

private theorem isSingleLine_commandForms :
    ∀ form ∈ commandForms, form.IsSingleLine := by
  simp only [commandForms, List.forall_mem_append, List.forall_mem_cons, List.not_mem_nil,
    false_implies, implies_true, and_true]
  refine ⟨⟨⟨⟨⟨⟨⟨⟨⟨⟨⟨⟨?_, ?_⟩, ?_⟩, ?_⟩, ?_⟩, ?_⟩, ?_⟩, ?_⟩, ?_⟩, ?_⟩, ?_⟩, ?_⟩, ?_⟩
  · refine LineForm.forall_isSingleLine_map_fixed ?_
    repeat refine Text.forall_isSingleLine_cons (by decide) ?_
    exact List.forall_mem_nil _
  · exact ⟨Text.isSingleLine_ofList (by decide), Text.isSingleLine_ofList (by decide)⟩
  · refine LineForm.forall_isSingleLine_map_fixed ?_
    repeat refine Text.forall_isSingleLine_cons (by decide) ?_
    exact List.forall_mem_nil _
  · exact LineForm.forall_isSingleLine_map_indent isSingleLine_firstBootForms 8
  · refine LineForm.forall_isSingleLine_map_fixed ?_
    repeat refine Text.forall_isSingleLine_cons (by decide) ?_
    exact List.forall_mem_nil _
  · exact LineForm.forall_isSingleLine_map_indent isSingleLine_serviceForms 8
  · refine LineForm.forall_isSingleLine_map_fixed ?_
    repeat refine Text.forall_isSingleLine_cons (by decide) ?_
    exact List.forall_mem_nil _
  · exact ⟨Text.isSingleLine_ofList (by decide), Text.isSingleLine_ofList (by decide)⟩
  · refine LineForm.forall_isSingleLine_map_fixed ?_
    repeat refine Text.forall_isSingleLine_cons (by decide) ?_
    exact List.forall_mem_nil _
  · exact LineForm.forall_isSingleLine_map_indent (isSingleLine_eventForms (by decide)) 8
  · refine LineForm.forall_isSingleLine_map_fixed ?_
    repeat refine Text.forall_isSingleLine_cons (by decide) ?_
    exact List.forall_mem_nil _
  · exact LineForm.forall_isSingleLine_map_indent (isSingleLine_eventForms (by decide)) 8
  · refine LineForm.forall_isSingleLine_map_fixed ?_
    repeat refine Text.forall_isSingleLine_cons (by decide) ?_
    exact List.forall_mem_nil _

/-! ### The texts of the holes -/

section

variable {binding : SessionBinding} {token : String} {options : LinuxInstallOptions}
  {targetPath : String}

variable (binding token options targetPath) in
/-- The text that the service writes into each hole. -/
private def holeText : AutoinstallHole → String
  | .hostname => Text.jsonString options.hostname
  | .username => Text.jsonString options.username
  | .sshKey index => Text.jsonString (options.sshAuthorizedKeys.getD index "")
  | .targetPath => Text.jsonString targetPath
  | .token => token
  | .completionUrl => sessionUrl binding.baseUrl binding.sessionId ++ "/first-boot"
  | .attemptId => binding.attemptId.hyphenated
  | .eventUrl => sessionUrl binding.baseUrl binding.sessionId ++ "/events"

theorem isScalarOf_jsonString {value : String} (h : value.toList.all Text.isAscii = true) :
    IsScalarOf value (Text.jsonString value) :=
  ⟨Json.decodeString_jsonString value, Json.isPrintable_jsonString h⟩

theorem IsScalarOf.isSingleLine {value text : String} (h : IsScalarOf value text) :
    Text.IsSingleLine text :=
  Text.isSingleLine_of_all (by decide) (by decide) h.2

private theorem isAscii_of_all {p : Char → Bool} {l : List Char}
    (hp : ∀ c, p c = true → c.isAlphanum = true ∨ c = '-' ∨ c = '_' ∨ c = '.')
    (h : l.all p = true) : l.all Text.isAscii = true := by
  rw [List.all_eq_true] at h ⊢
  intro c hc
  rcases hp c (h c hc) with hc | rfl | rfl | rfl
  · exact Text.isAscii_of_isAlphanum hc
  · decide
  · decide
  · decide

/-- The texts that the installation options hold are ASCII texts. -/
private theorem isAscii_of_validate (h : options.validate = .ok ()) :
    options.hostname.toList.all Text.isAscii = true ∧
      options.username.toList.all Text.isAscii = true ∧
      ∀ key ∈ options.sshAuthorizedKeys, key.toList.all Text.isAscii = true := by
  unfold LinuxInstallOptions.validate at h
  split_ifs at h with hhostname husername hcount
  simp only [Bool.not_eq_true', Bool.not_eq_false] at hhostname husername
  refine ⟨?_, ?_, fun key hkey => ?_⟩
  · simp only [LinuxInstallOptions.validLinuxHostname, Bool.and_eq_true] at hhostname
    refine isAscii_of_all (fun c hc => ?_) hhostname.2
    simp only [Bool.or_eq_true, beq_iff_eq] at hc
    rw [Char.isAlphanum, Char.isAlpha, Bool.or_eq_true, Bool.or_eq_true]
    tauto
  · simp only [LinuxInstallOptions.validLinuxUsername, Bool.and_eq_true] at husername
    refine isAscii_of_all (fun c hc => ?_) husername.2
    simp only [Bool.or_eq_true, beq_iff_eq] at hc
    rw [Char.isAlphanum, Char.isAlpha, Bool.or_eq_true, Bool.or_eq_true]
    tauto
  · have hvalid := LinuxInstallOptions.validSshPublicKey_of_checkSshKeys h key hkey
    unfold LinuxInstallOptions.validSshPublicKey at hvalid
    split_ifs at hvalid with hkey
    simp only [Bool.or_eq_true, not_or, Bool.not_eq_true', Bool.not_eq_false] at hkey
    exact hkey.1.2

/-- The path of a reported disk is an ASCII text, and it names a device. -/
private theorem isDevicePath_of_validObservedDisk {disk : LinuxInstallerObservedDisk}
    (h : validObservedDisk disk = true) :
    isDevicePath disk.path = true ∧ disk.path.toList.all Text.isAscii = true := by
  simp only [validObservedDisk, Bool.and_eq_true] at h
  obtain ⟨⟨⟨⟨hbasename, -⟩, -⟩, -⟩, -⟩ := h
  obtain ⟨basename, hprefix, hvalid⟩ := (Option.any_eq_true _ _).mp hbasename
  simp only [validDeviceBasename, Bool.and_eq_true, decide_eq_true_eq] at hvalid
  obtain ⟨⟨⟨⟨hpositive, hlength⟩, -⟩, -⟩, hcharacters⟩ := hvalid
  have hascii : basename.toList.all Text.isAscii = true := by
    refine isAscii_of_all (fun c hc => ?_) hcharacters
    simp only [Bool.or_eq_true, beq_iff_eq] at hc
    tauto
  have hslash : Text.containsChar '/' basename = false := by
    rw [Text.containsChar, List.contains_eq_mem, decide_eq_false_iff_not]
    exact notMem_of_all (by decide) hcharacters
  refine ⟨?_, ?_⟩
  · rw [isDevicePath, hprefix, Option.any_some]
    simp only [isDeviceName, hslash, Bool.and_eq_true, decide_eq_true_eq, hlength]
    refine ⟨⟨⟨?_, trivial⟩, rfl⟩, ?_⟩
    · rw [Bool.not_eq_true', String.isEmpty, beq_eq_false_iff_ne]
      omega
    · rw [List.all_eq_true] at hcharacters ⊢
      intro c hc
      have hcharacter := hcharacters c hc
      simp only [Bool.or_eq_true, beq_iff_eq] at hcharacter ⊢
      tauto
  · rw [Text.stripPrefix_eq_some_iff.mp hprefix, String.toList_append, List.all_append, hascii]
    decide

/-! ### The rendered configuration -/

private theorem fill_identityForms :
    (identityForms options.sshAuthorizedKeys.length).map
      (LineForm.fill (holeText binding token options targetPath)) = identityLines options := by
  have hkeys : ((List.range options.sshAuthorizedKeys.length).map fun index =>
      ({ before := "      - ", hole := some (.sshKey index), after := "" } :
        LineForm AutoinstallHole)).map (LineForm.fill (holeText binding token options targetPath)) =
      options.sshAuthorizedKeys.map fun key => "      - " ++ Text.jsonString key := by
    refine List.ext_getElem (by simp) fun index hleft hright => ?_
    rw [List.length_map] at hright
    simp [LineForm.fill, holeText, hright]
  simp only [identityForms, List.map_append, LineForm.map_fill_fixed, hkeys, identityLines]
  simp only [List.map_cons, List.map_nil, LineForm.fill, holeText, String.append_empty]

private theorem fill_storageForms :
    storageForms.map (LineForm.fill (holeText binding token options targetPath)) =
      "  storage:" :: storageLines (Text.jsonString targetPath) := by
  simp only [storageForms, List.map_append, LineForm.map_fill_fixed, storageLines]
  simp only [List.map_cons, List.map_nil, LineForm.fill, holeText, String.append_empty,
    List.cons_append, List.nil_append]

private theorem fill_commandForms {callback awaitingEvent failedEvent : String}
    {text : AutoinstallHole → String} (hsingle : ∀ hole, Text.IsSingleLine (text hole))
    (htoken : text .token = token)
    (hcallback : callback = Text.unlines (firstBootForms.map (LineForm.fill text)))
    (hawaiting : awaitingEvent =
      Text.unlines ((eventForms "awaiting_first_boot").map (LineForm.fill text)))
    (hfailed : failedEvent = Text.unlines ((eventForms "failed").map (LineForm.fill text))) :
    Text.unlines (commandForms.map (LineForm.fill text)) =
      Text.unlines ["  late-commands:"] ++
        commandsText token callback firstBootService awaitingEvent failedEvent := by
  rw [commandsText, hcallback, hawaiting, hfailed, firstBootService_eq text,
    Text.indentLines_unlines_fill isSingleLine_firstBootForms hsingle,
    Text.indentLines_unlines_fill isSingleLine_serviceForms hsingle,
    Text.indentLines_unlines_fill (isSingleLine_eventForms (by decide)) hsingle,
    Text.indentLines_unlines_fill (isSingleLine_eventForms (by decide)) hsingle]
  simp only [← Text.unlines_append]
  congr 1
  simp only [commandForms, List.map_append, LineForm.map_fill_fixed]
  simp only [List.map_cons, List.map_nil, LineForm.fill, htoken,
    String.append_empty, List.cons_append, List.nil_append, List.append_assoc]

/-- The configuration is the template with these texts in its holes. -/
private theorem renderFinalAutoinstall_eq (hurl : IsSocketUrl binding.baseUrl)
    (htoken : token.toList.all isTokenCharacter = true) (hdevice : isDevicePath targetPath = true)
    (hsingle : ∀ hole, Text.IsSingleLine (holeText binding token options targetPath hole)) :
    renderFinalAutoinstall binding token options targetPath =
      .ok (Text.unlines ((autoinstallForms options.sshAuthorizedKeys.length).map
        (LineForm.fill (holeText binding token options targetPath)))) := by
  have hcompletion := isUrlCharacter_sessionUrl hurl
    (show "/first-boot".toList.all isUrlCharacter = true by decide)
  have hevents := isUrlCharacter_sessionUrl hurl
    (show "/events".toList.all isUrlCharacter = true by decide)
  set text := holeText binding token options targetPath with htext
  have hcallback := fill_firstBootScript text hcompletion rfl rfl
  have hevent := fill_installerEventScript text hevents htoken rfl rfl
  have hcommands := fill_commandForms hsingle rfl hcallback (hevent _) (hevent _)
  obtain ⟨deviceName, hprefix, hname⟩ := (Option.any_eq_true _ _).mp hdevice
  simp only [renderFinalAutoinstall, hprefix, hname, Bool.not_true, Bool.false_eq_true, if_false]
  have hforms : (autoinstallForms options.sshAuthorizedKeys.length).map (LineForm.fill text) =
      identityLines options ++ ("  storage:" :: storageLines (Text.jsonString targetPath)) ++
        commandForms.map (LineForm.fill text) := by
    rw [autoinstallForms, List.map_append, List.map_append, fill_identityForms, fill_storageForms]
  rw [hforms, Text.unlines_append _ ["  late-commands:"], String.append_assoc,
    Text.unlines_append _ (commandForms.map _), hcommands]
  rfl

/-- The storage section and the commands have no hole for a key. -/
private theorem all_not_sshKey : (storageForms ++ commandForms).all (fun form =>
    match form.hole with
    | some (.sshKey _) => false
    | _ => true) = true := rfl

/-- A hole for a key that the options do not hold is not in the template. -/
private theorem lt_of_sshKey_mem {keys index : ℕ} {form : LineForm AutoinstallHole}
    (hform : form ∈ autoinstallForms keys) (hhole : form.hole = some (.sshKey index)) :
    index < keys := by
  have hfixed {ls : List String} (hmem : form ∈ ls.map LineForm.fixed) : False :=
    LineForm.forall_hole_of_mem_map_fixed (p := fun _ _ => False) form hmem _ hhole
  have hrest :
      ∀ form ∈ storageForms ++ commandForms, ∀ index, form.hole ≠ some (.sshKey index) := by
    intro form hmem index hkey
    have hform := List.all_eq_true.mp all_not_sshKey form hmem
    simp [hkey] at hform
  rw [autoinstallForms, List.append_assoc] at hform
  rcases List.mem_append.mp hform with hmem | hmem
  · simp only [identityForms, List.mem_append] at hmem
    rcases hmem with (((hmem | hmem) | hmem) | hmem) | hmem
    · exact (hfixed hmem).elim
    · simp only [List.mem_cons, List.not_mem_nil, or_false] at hmem
      rcases hmem with rfl | rfl
      · simp at hhole
      · simp at hhole
    · exact (hfixed hmem).elim
    · obtain ⟨i, hi, rfl⟩ := List.mem_map.mp hmem
      simp only [Option.some.injEq, AutoinstallHole.sshKey.injEq] at hhole
      rw [← hhole]
      exact List.mem_range.mp hi
    · exact (hfixed hmem).elim
  · exact absurd hhole (hrest form hmem index)

/-- The texts that the service writes are the admitted ones. -/
private theorem admits_holeText (hoptions : options.validate = .ok ())
    (hpath : targetPath.toList.all Text.isAscii = true) {form : LineForm AutoinstallHole}
    (hform : form ∈ autoinstallForms options.sshAuthorizedKeys.length) (hole : AutoinstallHole)
    (hhole : form.hole = some hole) :
    hole.Admits binding token options targetPath
      (holeText binding token options targetPath hole) := by
  obtain ⟨hhostname, husername, hkeys⟩ := isAscii_of_validate hoptions
  cases hole with
  | hostname => exact isScalarOf_jsonString hhostname
  | username => exact isScalarOf_jsonString husername
  | targetPath => exact isScalarOf_jsonString hpath
  | token => rfl
  | completionUrl => rfl
  | attemptId => rfl
  | eventUrl => rfl
  | sshKey index =>
    have hindex := List.getElem?_eq_getElem (lt_of_sshKey_mem hform hhole)
    refine ⟨_, hindex, ?_⟩
    rw [holeText, List.getD_eq_getElem?_getD, hindex, Option.getD_some]
    exact isScalarOf_jsonString (hkeys _ (List.getElem_mem _))

private theorem isSingleLine_holeText (hurl : IsSocketUrl binding.baseUrl)
    (htoken : token.toList.all isTokenCharacter = true) (hoptions : options.validate = .ok ())
    (hpath : targetPath.toList.all Text.isAscii = true) (hole : AutoinstallHole) :
    Text.IsSingleLine (holeText binding token options targetPath hole) := by
  obtain ⟨hhostname, husername, hkeys⟩ := isAscii_of_validate hoptions
  cases hole with
  | hostname => exact (isScalarOf_jsonString hhostname).isSingleLine
  | username => exact (isScalarOf_jsonString husername).isSingleLine
  | targetPath => exact (isScalarOf_jsonString hpath).isSingleLine
  | token => exact Text.isSingleLine_of_all (by decide) (by decide) htoken
  | completionUrl =>
    exact Text.isSingleLine_of_all (by decide) (by decide)
      (isUrlCharacter_sessionUrl hurl (by decide))
  | attemptId =>
    exact Text.isSingleLine_of_all (by decide) (by decide) (isUrlCharacter_hyphenated _)
  | eventUrl =>
    exact Text.isSingleLine_of_all (by decide) (by decide)
      (isUrlCharacter_sessionUrl hurl (by decide))
  | sshKey index =>
    refine (isScalarOf_jsonString ?_).isSingleLine
    rw [List.getD_eq_getElem?_getD]
    cases hkey : options.sshAuthorizedKeys[index]? with
    | none => decide
    | some key => exact hkeys key (List.mem_of_getElem? hkey)

theorem length_autoinstallForms (keys : ℕ) : (autoinstallForms keys).length = 146 + keys := by
  have hrest : (storageForms ++ commandForms).length = 123 := rfl
  rw [autoinstallForms, List.append_assoc, List.length_append, hrest]
  simp only [identityForms, List.length_append, List.length_map, List.length_range,
    List.length_cons, List.length_nil]
  omega

/-- The configuration for valid options and a disk of a valid request is rendered, and it is the
fixed sequence of lines with admitted texts in its holes: the host name, the user name, each key and
the path of the disk are JSON strings of printable characters that stand for the given values, and
everything else comes from the service. -/
theorem fitsTemplate_of_renderFinalAutoinstall {request : LinuxInstallerGuardRequest}
    {disk : LinuxInstallerObservedDisk} (first second : Uuid) (hurl : IsSocketUrl binding.baseUrl)
    (hoptions : options.validate = .ok ()) (hrequest : request.validate = .ok ())
    (hdisk : disk ∈ request.disks) :
    ∃ document, renderFinalAutoinstall binding
        (generateSecret "easydeploymesh_installer" first second) options disk.path = .ok document ∧
      FitsTemplate (AutoinstallHole.Admits binding
          (generateSecret "easydeploymesh_installer" first second) options disk.path)
        (autoinstallForms options.sshAuthorizedKeys.length) document ∧
      (Text.lines document).length = 146 + options.sshAuthorizedKeys.length := by
  have htoken := isTokenCharacter_generateSecret first second
  set token := generateSecret "easydeploymesh_installer" first second
  obtain ⟨hdevice, hpath⟩ := isDevicePath_of_validObservedDisk
    (LinuxInstallerGuardRequest.validObservedDisk_of_validate hrequest disk hdisk)
  have hsingle : ∀ hole, Text.IsSingleLine (holeText binding token options disk.path hole) :=
    isSingleLine_holeText hurl htoken hoptions hpath
  have hforms : ∀ form ∈ autoinstallForms options.sshAuthorizedKeys.length, form.IsSingleLine := by
    simp only [autoinstallForms, List.forall_mem_append]
    exact ⟨⟨isSingleLine_identityForms _, isSingleLine_storageForms⟩, isSingleLine_commandForms⟩
  have hfits : FitsTemplate (AutoinstallHole.Admits binding token options disk.path)
      (autoinstallForms options.sshAuthorizedKeys.length) (Text.unlines
        ((autoinstallForms options.sshAuthorizedKeys.length).map
          (LineForm.fill (holeText binding token options disk.path)))) :=
    fitsTemplate_fill hsingle hforms fun _ hform hole hhole =>
      admits_holeText hoptions hpath hform hole hhole
  refine ⟨_, renderFinalAutoinstall_eq hurl htoken hdevice hsingle, hfits, ?_⟩
  rw [← length_autoinstallForms, hfits.fits.length_eq]

end

/-- The options of the laboratory with a key whose comment holds quotes and a tab. -/
def quotedOptions : LinuxInstallOptions :=
  { labOptions with
    sshAuthorizedKeys := labOptions.sshAuthorizedKeys ++
      ["ssh-ed25519 AAAAC3NzaC1lZDI1NTE5 \"root\": C:\\keys\t#"] }

theorem fitsTemplate_of_quotedOptions : ∃ document, renderFinalAutoinstall
    (labBinding .offered none) (generateSecret "easydeploymesh_installer" 21 22) quotedOptions
      "/dev/sda" = .ok document ∧
      FitsTemplate (AutoinstallHole.Admits (labBinding .offered none)
        (generateSecret "easydeploymesh_installer" 21 22) quotedOptions "/dev/sda")
        (autoinstallForms 2) document := by
  have hurl : IsSocketUrl (labBinding .offered none).baseUrl :=
    ⟨"192.0.2.1:8080", rfl, by decide +kernel⟩
  have hoptions : quotedOptions.validate = .ok () := by decide +kernel
  have hrequest : smallerDisk.validate = .ok () := by decide +kernel
  have hdisk : labDisk 511998951424 ∈ smallerDisk.disks := List.mem_cons_self
  obtain ⟨document, hrender, hfits, -⟩ :=
    fitsTemplate_of_renderFinalAutoinstall 21 22 hurl hoptions hrequest hdisk
  exact ⟨document, hrender, hfits⟩

end EasyDeployMesh
