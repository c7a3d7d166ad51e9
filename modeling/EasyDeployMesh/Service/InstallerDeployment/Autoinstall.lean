import EasyDeployMesh.Service.InstallerDeployment.Session

/-!
# The texts of an installer session

The documents that `installer_deployment.rs` renders for a session: the boot script, the first user
data, which only runs the target guard, and the autoinstall configuration that an authorized guard
receives. The configuration names the authorized disk in its storage section, and no other.

## Main definitions

* `EasyDeployMesh.renderBootScript`, `EasyDeployMesh.renderInitialUserData`,
  `EasyDeployMesh.renderInitialMetaData`, `EasyDeployMesh.renderFinalAutoinstall`.
* `EasyDeployMesh.storageSection`, `EasyDeployMesh.namedPaths`, `EasyDeployMesh.diskPaths`: a
  reading of the storage section of a configuration.

## Main results

* `EasyDeployMesh.storageSection_of_render`: the storage section of a rendered configuration.
* `EasyDeployMesh.diskPaths_of_render`: the authorized path is the only disk of the section.
-/

namespace EasyDeployMesh

open Foundations

/-! ### Scripts -/

/-- The program that asks for the authorization of the target machine. -/
def installerGuardScript : String :=
  Text.unlines
    ["umask 077", "cat > /run/easydeploymesh-installer-guard.py <<'EDM_GUARD'", "import glob",
     "import hashlib", "import json", "import os", "import pathlib", "import subprocess",
     "import time", "import urllib.error", "import urllib.request", "",
     "GUARD_URL = \"__GUARD_URL__\"", "SESSION_TOKEN = \"__SESSION_TOKEN__\"",
     "MAX_RESPONSE_BYTES = 1024 * 1024", "", "def find_iso():", "    try:",
     "        for line in pathlib.Path(\"/proc/self/mounts\").read_text().splitlines():",
     "            fields = line.split()",
     "            if len(fields) >= 2 and fields[1] == \"/cdrom\" " ++
       "and fields[0].startswith(\"/dev/loop\"):",
     "                loop_name = pathlib.Path(fields[0]).name",
     "                backing = pathlib.Path(\"/sys/class/block\") " ++
       "/ loop_name / \"loop/backing_file\"",
     "                candidate = pathlib.Path(\"/\") / backing.read_text().strip().lstrip(\"/\")",
     "                if candidate.is_file():", "                    return candidate",
     "    except (OSError, ValueError):", "        pass",
     "    for pattern in (\"/run/casper/*.iso\", \"/isodevice/*.iso\"):",
     "        for value in glob.glob(pattern):", "            candidate = pathlib.Path(value)",
     "            if candidate.is_file():", "                return candidate",
     "    raise RuntimeError(\"installer ISO backing file is unavailable\")", "",
     "def sha256(path):", "    digest = hashlib.sha256()", "    with path.open(\"rb\") as source:",
     "        while True:", "            chunk = source.read(4 * 1024 * 1024)",
     "            if not chunk:", "                break", "            digest.update(chunk)",
     "    return digest.hexdigest()", "", "def inventory():", "    raw = subprocess.check_output([",
     "        \"lsblk\", \"--json\", \"--bytes\", \"--nodeps\",",
     "        \"--output\", \"PATH,MODEL,SERIAL,SIZE,TYPE\",", "    ], timeout=30)",
     "    devices = json.loads(raw).get(\"blockdevices\", [])", "    return [", "        \x7b",
     "            \"path\": str(device.get(\"path\") or \"\"),",
     "            \"model\": str(device.get(\"model\") or \"\").strip(),",
     "            \"serial\": " ++
       "(str(device[\"serial\"]).strip() if device.get(\"serial\") else None),",
     "            \"sizeBytes\": int(device.get(\"size\") or 0),", "        \x7d",
     "        for device in devices if device.get(\"type\") == \"disk\"", "    ]", "",
     "payload = json.dumps(\x7b\"imageSha256\": sha256(find_iso()), " ++
       "\"disks\": inventory()\x7d).encode()",
     "request = urllib.request.Request(", "    GUARD_URL,", "    data=payload,", "    headers=\x7b",
     "        \"Authorization\": \"Bearer \" + SESSION_TOKEN,",
     "        \"Content-Type\": \"application/json\",", "    \x7d,", "    method=\"POST\",", ")",
     "last_error = None", "for attempt in range(120):", "    try:",
     "        with urllib.request.urlopen(request, timeout=30) as response:",
     "            configuration = response.read(MAX_RESPONSE_BYTES + 1)",
     "        if len(configuration) > MAX_RESPONSE_BYTES:",
     "            raise RuntimeError(\"installer configuration exceeds limit\")",
     "        pathlib.Path(\"/autoinstall.yaml\").write_bytes(configuration)", "        break",
     "    except urllib.error.HTTPError as error:", "        if error.code not in (409, 429, 503):",
     "            raise", "        last_error = error",
     "    except (OSError, urllib.error.URLError) as error:", "        last_error = error",
     "    time.sleep(10)", "else:",
     "    raise RuntimeError(\"target authorization did not complete\") from last_error",
     "EDM_GUARD", "chmod 0700 /run/easydeploymesh-installer-guard.py",
     "python3 /run/easydeploymesh-installer-guard.py",
     "rm -f /run/easydeploymesh-installer-guard.py"]

/-- The program that reports the first boot of the installed system. -/
def firstBootScript : String :=
  Text.unlines
    ["#!/usr/bin/python3", "import json", "import os", "import pathlib", "import urllib.request",
     "", "token_path = pathlib.Path(\"/etc/easydeploymesh/installer-token\")",
     "token = token_path.read_text().strip()", "request = urllib.request.Request(",
     "    \"__COMPLETION_URL__\",",
     "    data=json.dumps(\x7b\"attemptId\": \"__ATTEMPT_ID__\"\x7d).encode(),",
     "    headers=\x7b\"Authorization\": \"Bearer \" + token, " ++
       "\"Content-Type\": \"application/json\"\x7d,",
     "    method=\"POST\",", ")", "with urllib.request.urlopen(request, timeout=30) as response:",
     "    if response.status not in (200, 204):",
     "        raise RuntimeError(\"completion was not accepted\")",
     "token_path.unlink(missing_ok=True)",
     "pathlib.Path(\"/etc/systemd/system/multi-user.target.wants/" ++
       "easydeploymesh-first-boot.service\").unlink(missing_ok=True)"]

/-- The program that reports one event of the installation. -/
def installerEventScript : String :=
  Text.unlines
    ["import json", "import urllib.request", "", "request = urllib.request.Request(",
     "    \"__EVENT_URL__\",",
     "    data=json.dumps(\x7b\"kind\": \"__EVENT_KIND__\"\x7d).encode(),", "    headers=\x7b",
     "        \"Authorization\": \"Bearer __SESSION_TOKEN__\",",
     "        \"Content-Type\": \"application/json\",", "    \x7d,", "    method=\"POST\",", ")",
     "with urllib.request.urlopen(request, timeout=30) as response:",
     "    if response.status not in (200, 204):",
     "        raise RuntimeError(\"installer event was not accepted\")"]

/-- The unit that runs the first-boot program. -/
def firstBootService : String :=
  Text.unlines
    ["[Unit]", "Description=EasyDeployMesh first-boot completion", "After=network-online.target",
     "Wants=network-online.target", "ConditionPathExists=/etc/easydeploymesh/installer-token", "",
     "[Service]", "Type=oneshot", "ExecStart=/usr/local/sbin/easydeploymesh-first-boot",
     "Restart=on-failure", "RestartSec=30", "", "[Install]", "WantedBy=multi-user.target"]

/-! ### Boot script and user data -/

/-- The address of a session. -/
def sessionUrl (baseUrl : String) (sessionId : Uuid) : String :=
  baseUrl ++ "/api/v1/install/sessions/" ++ sessionId.hyphenated

/-- The iPXE script that answers a boot query. -/
def renderBootScript : BootOutcome → String
  | .noAssignment =>
    Text.unlines
      ["#!ipxe", "# EasyDeployMesh no Linux assignment",
       "chain tftp://$\x7bnext-server\x7d/boot/easydeploymesh-winpe.ipxe || exit"]
  | .denied =>
    Text.unlines
      ["#!ipxe", "# EasyDeployMesh assignment denied; do not fall back to destructive media",
       "echo EasyDeployMesh refused this installer assignment", "exit"]
  | .assigned assignment =>
    Text.unlines
      ["#!ipxe", "# EasyDeployMesh Ubuntu autoinstall assignment v1",
       "set edm-session " ++ sessionUrl assignment.baseUrl assignment.sessionId,
       "set edm-attempt " ++ assignment.attemptId.hyphenated, "set edm-token " ++ assignment.token,
       "kernel $\x7bedm-session\x7d/kernel?token=$\x7bedm-token\x7d " ++
         "initrd=easydeploymesh-initrd ip=dhcp boot=casper autoinstall " ++
         "cloud-config-url=/dev/null " ++
         "ds=nocloud-net\\;s=$\x7bedm-session\x7d/seed/$\x7bedm-token\x7d/ " ++
         "iso-url=$\x7bedm-session\x7d/iso?token=$\x7bedm-token\x7d || exit",
       "initrd --name easydeploymesh-initrd " ++
         "$\x7bedm-session\x7d/initrd?token=$\x7bedm-token\x7d || exit",
       "boot || exit"]

/-- The first configuration of the installer: it holds nothing but the guard. -/
def renderInitialUserData (binding : SessionBinding) (token : String) : String :=
  let guardUrl := sessionUrl binding.baseUrl binding.sessionId ++ "/guard"
  let script := Text.replaceAll "__SESSION_TOKEN__" token
    (Text.replaceAll "__GUARD_URL__" guardUrl installerGuardScript)
  Text.unlines
    ["#cloud-config", "autoinstall:", "  version: 1", "  refresh-installer:", "    update: false",
     "  early-commands:", "    - |"] ++ Text.indentLines script 8

/-- The instance of the installer, one for each attempt. -/
def renderInitialMetaData (binding : SessionBinding) : String :=
  Text.unlines
    ["instance-id: easydeploymesh-" ++ binding.attemptId.hyphenated,
     "local-hostname: easydeploymesh-installer"]

/-! ### The autoinstall configuration -/

/-- The lines before the storage section. -/
def identityLines (options : LinuxInstallOptions) : List String :=
  ["#cloud-config", "autoinstall:", "  version: 1", "  refresh-installer:", "    update: false",
   "  locale: en_US.UTF-8", "  keyboard:", "    layout: us", "  identity:"] ++
  ["    hostname: " ++ Text.jsonString options.hostname,
   "    username: " ++ Text.jsonString options.username] ++
  ["    password: \"!\"", "  ssh:", "    install-server: true", "    allow-pw: false",
   "    authorized-keys:"] ++
  options.sshAuthorizedKeys.map (fun key => "      - " ++ Text.jsonString key) ++
  ["  network:", "    version: 2", "    ethernets:", "      deployment-nic:", "        match:",
   "          name: \"e*\"", "        dhcp4: true"]

/-- The lines of the storage section; `targetPath` is the text of the path as a scalar. -/
def storageLines (targetPath : String) : List String :=
  ["    config:", "      - id: target-disk", "        type: disk"] ++
  ["        path: " ++ targetPath] ++
  ["        ptable: gpt", "        wipe: superblock-recursive", "        preserve: false",
   "        grub_device: true", "      - id: efi-partition", "        type: partition",
   "        device: target-disk", "        size: 1G", "        flag: boot",
   "        grub_device: true", "      - id: efi-format", "        type: format",
   "        volume: efi-partition", "        fstype: fat32", "      - id: efi-mount",
   "        type: mount", "        device: efi-format", "        path: /boot/efi",
   "      - id: root-partition", "        type: partition", "        device: target-disk",
   "        size: -1", "      - id: root-format", "        type: format",
   "        volume: root-partition", "        fstype: ext4", "      - id: root-mount",
   "        type: mount", "        device: root-format", "        path: /"]

/-- The text after the line `late-commands:`. -/
def commandsText (token callback service awaitingEvent failedEvent : String) : String :=
  Text.unlines
    ["    - |", "        install -d -m 0700 /target/etc/easydeploymesh",
     "        cat > /target/etc/easydeploymesh/installer-token <<'EDM_TOKEN'",
     "        " ++ token, "        EDM_TOKEN",
     "        chmod 0600 /target/etc/easydeploymesh/installer-token",
     "        install -d -m 0755 /target/etc/systemd/system/multi-user.target.wants",
     "        cat > /target/usr/local/sbin/easydeploymesh-first-boot <<'EDM_CALLBACK'"] ++
  Text.indentLines callback 8 ++
  Text.unlines
    ["        EDM_CALLBACK", "        chmod 0700 /target/usr/local/sbin/easydeploymesh-first-boot",
     "        cat > /target/etc/systemd/system/easydeploymesh-first-boot.service <<'EDM_SERVICE'"
    ] ++
  Text.indentLines service 8 ++
  Text.unlines
    ["        EDM_SERVICE",
     "        ln -sf ../easydeploymesh-first-boot.service " ++
       "/target/etc/systemd/system/multi-user.target.wants/easydeploymesh-first-boot.service",
     "        cat > /run/easydeploymesh-awaiting-first-boot.py <<'EDM_AWAITING'"] ++
  Text.indentLines awaitingEvent 8 ++
  Text.unlines
    ["        EDM_AWAITING", "        python3 /run/easydeploymesh-awaiting-first-boot.py",
     "        rm -f /run/easydeploymesh-awaiting-first-boot.py", "  error-commands:", "    - |",
     "        cat > /run/easydeploymesh-install-failed.py <<'EDM_FAILED'"] ++
  Text.indentLines failedEvent 8 ++
  Text.unlines
    ["        EDM_FAILED", "        python3 /run/easydeploymesh-install-failed.py || true",
     "        rm -f /run/easydeploymesh-install-failed.py", "  shutdown: reboot"]

/-- The rest of a path after `/dev/` names a device. -/
def isDeviceName (deviceName : String) : Bool :=
  !deviceName.isEmpty && deviceName.utf8ByteSize ≤ 128 && !Text.containsChar '/' deviceName &&
    deviceName.toList.all fun c => c.isAlphanum || c == '_' || c == '-' || c == '.'

/-- The configuration that the guard releases for one disk. -/
def renderFinalAutoinstall (binding : SessionBinding) (token : String)
    (options : LinuxInstallOptions) (targetPath : String) :
    Except InstallerDeploymentError String :=
  match Text.stripPrefix "/dev/" targetPath with
  | none => .error .configuration
  | some deviceName =>
    if !isDeviceName deviceName then .error .configuration
    else
      let url := sessionUrl binding.baseUrl binding.sessionId
      let callback := Text.replaceAll "__ATTEMPT_ID__" binding.attemptId.hyphenated
        (Text.replaceAll "__COMPLETION_URL__" (url ++ "/first-boot") firstBootScript)
      let event := fun kind => Text.replaceAll "__EVENT_KIND__" kind
        (Text.replaceAll "__SESSION_TOKEN__" token
          (Text.replaceAll "__EVENT_URL__" (url ++ "/events") installerEventScript))
      .ok (Text.unlines (identityLines options ++
          "  storage:" :: storageLines (Text.jsonString targetPath) ++ ["  late-commands:"]) ++
        commandsText token callback firstBootService (event "awaiting_first_boot") (event "failed"))

/-! ### Reading the storage section -/

/-- The lines below `storage:` that are indented under it. -/
def storageSection (document : String) : List String :=
  (((Text.lines document).dropWhile fun line => line != "  storage:").drop 1).takeWhile
    fun line => (Text.stripPrefix "    " line).isSome

/-- Every path that a list of storage lines names. -/
def namedPaths (lines : List String) : List String :=
  lines.filterMap (Text.stripPrefix "        path: ")

/-- The paths of the items of type `disk`; `isDisk` holds while such an item is read. -/
def diskPaths (isDisk : Bool) : List String → List String
  | [] => []
  | line :: lines =>
    match Text.stripPrefix "        type: " line, Text.stripPrefix "        path: " line with
    | some type, _ => diskPaths (type == "disk") lines
    | none, some path => if isDisk then path :: diskPaths isDisk lines else diskPaths isDisk lines
    | none, none => diskPaths (isDisk && (Text.stripPrefix "      - " line).isNone) lines

/-! ### The storage section of a rendered configuration -/

/-- The line can be read back, and it does not begin the storage section. -/
private def IsPlain (line : String) : Prop :=
  ('\n' ∉ line.toList ∧ line.toList.getLast? ≠ some '\r') ∧ line ≠ "  storage:"

private theorem isPlain_scalar {label : String} (hnewline : '\n' ∉ label.toList)
    (hindent : (label.toList.take 3) = "   ".toList) (s : String) :
    IsPlain (label ++ Text.jsonString s) := by
  refine ⟨⟨?_, ?_⟩, fun heq => ?_⟩
  · simp [String.toList_append, hnewline, Text.newline_notMem_jsonString]
  · rw [String.toList_append, List.getLast?_append, Text.getLast?_jsonString]
    simp
  · have hlength : 3 ≤ label.toList.length := by
      have hthree := congrArg List.length hindent
      simp only [List.length_take] at hthree
      have htext : "   ".toList.length = 3 := by decide
      omega
    have htake := congrArg (fun line => line.toList.take 3) heq
    simp only [String.toList_append, List.take_append_of_le_length hlength, hindent] at htake
    exact absurd htake (by decide)

private theorem isPlain_of_mem_identityLines (options : LinuxInstallOptions) :
    ∀ line ∈ identityLines options, IsPlain line := by
  simp only [identityLines, List.forall_mem_append]
  refine ⟨⟨⟨⟨?_, ?_⟩, ?_⟩, ?_⟩, ?_⟩
  · simp only [IsPlain]
    decide
  · simp only [List.forall_mem_cons, List.not_mem_nil, false_implies, implies_true, and_true]
    exact ⟨isPlain_scalar (by decide) (by decide) _, isPlain_scalar (by decide) (by decide) _⟩
  · simp only [IsPlain]
    decide
  · intro line hline
    obtain ⟨key, -, rfl⟩ := List.mem_map.1 hline
    exact isPlain_scalar (by decide) (by decide) _
  · simp only [IsPlain]
    decide

private theorem isPlain_of_mem_storageLines (path : String) :
    ∀ line ∈ storageLines (Text.jsonString path), IsPlain line := by
  simp only [storageLines, List.forall_mem_append, List.forall_mem_singleton]
  refine ⟨⟨?_, ?_⟩, ?_⟩
  · simp only [IsPlain]
    decide
  · exact isPlain_scalar (by decide) (by decide) _
  · simp only [IsPlain]
    decide

private theorem indented_storageLines (path : String) :
    ∀ line ∈ storageLines path, (Text.stripPrefix "    " line).isSome = true := by
  simp only [storageLines, List.forall_mem_append, List.forall_mem_singleton]
  refine ⟨⟨by decide, ?_⟩, by decide⟩
  have hsplit : "        path: " ++ path = "    " ++ ("    path: " ++ path) := by
    rw [← String.append_assoc]
    rfl
  rw [hsplit, Text.stripPrefix_append, Option.isSome_some]

/-- The storage section of a rendered configuration consists of `storageLines`, with the path as its
only variable part. -/
theorem storageSection_of_render {binding : SessionBinding} {token : String}
    {options : LinuxInstallOptions} {targetPath document : String}
    (h : renderFinalAutoinstall binding token options targetPath = .ok document) :
    storageSection document = storageLines (Text.jsonString targetPath) := by
  unfold renderFinalAutoinstall at h
  split at h
  · simp at h
  · split_ifs at h
    obtain rfl := Except.ok.inj h
    have hread : ∀ line ∈ identityLines options ++ "  storage:" ::
        storageLines (Text.jsonString targetPath) ++ ["  late-commands:"],
        '\n' ∉ line.toList ∧ line.toList.getLast? ≠ some '\r' := by
      simp only [List.forall_mem_append, List.forall_mem_cons, List.append_assoc, List.cons_append]
      exact ⟨fun line hline => (isPlain_of_mem_identityLines options line hline).1, by decide,
        fun line hline => (isPlain_of_mem_storageLines targetPath line hline).1, by decide⟩
    have hskip : ∀ line ∈ identityLines options, (line != "  storage:") = true := by
      intro line hline
      simpa using (isPlain_of_mem_identityLines options line hline).2
    have hstop : (Text.stripPrefix "    " "  late-commands:").isSome = false := by decide
    rw [storageSection, Text.lines_unlines_append hread]
    simp only [List.append_assoc, List.cons_append, List.nil_append]
    rw [List.dropWhile_append_of_pos hskip, List.dropWhile_cons_of_neg (by simp), List.drop_one,
      List.tail_cons, List.takeWhile_append_of_pos (indented_storageLines _),
      List.takeWhile_cons_of_neg (by simp [hstop]), List.append_nil]

/-- The storage section names the given path and the two mount points. -/
theorem namedPaths_storageLines (targetPath : String) :
    namedPaths (storageLines targetPath) = [targetPath, "/boot/efi", "/"] := by
  simp only [namedPaths, storageLines, List.filterMap_append, List.filterMap_cons,
    Text.stripPrefix_append]
  rfl

/-- The given path is the only disk of the storage section. -/
theorem diskPaths_storageLines (targetPath : String) :
    diskPaths false (storageLines targetPath) = [targetPath] := by
  have htype : Text.stripPrefix "        type: " ("        path: " ++ targetPath) = none := by
    have hlist :
        ("        path: " ++ targetPath).toList = "        path: ".toList ++ targetPath.toList :=
      String.toList_append
    simp [Text.stripPrefix, hlist]
  calc diskPaths false (storageLines targetPath)
      = diskPaths true (("        path: " ++ targetPath) :: (storageLines targetPath).drop 4) := rfl
    _ = targetPath :: diskPaths true ((storageLines targetPath).drop 4) := by
      rw [diskPaths, htype, Text.stripPrefix_append]
      rfl
    _ = [targetPath] := rfl

/-- The authorized path is the only disk of a rendered configuration. -/
theorem diskPaths_of_render {binding : SessionBinding} {token : String}
    {options : LinuxInstallOptions} {targetPath document : String}
    (h : renderFinalAutoinstall binding token options targetPath = .ok document) :
    diskPaths false (storageSection document) = [Text.jsonString targetPath] := by
  rw [storageSection_of_render h, diskPaths_storageLines]

theorem namedPaths_of_render {binding : SessionBinding} {token : String}
    {options : LinuxInstallOptions} {targetPath document : String}
    (h : renderFinalAutoinstall binding token options targetPath = .ok document) :
    namedPaths (storageSection document) = [Text.jsonString targetPath, "/boot/efi", "/"] := by
  rw [storageSection_of_render h, namedPaths_storageLines]

end EasyDeployMesh
