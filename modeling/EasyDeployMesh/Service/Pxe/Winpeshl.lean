import EasyDeployMesh.Foundations.Lines
import EasyDeployMesh.Foundations.Network
import EasyDeployMesh.Service.Pxe.Config

/-!
# The launch section of WinPE

`patch_winpeshl_for_agent` of `crates/service/src/pxe.rs` makes WinPE start the Agent launcher: it
adds a line below the header `[LaunchApps]`, or else replaces the command of `[LaunchApp]` and
returns the replaced command in a shell script. The texts are bytes, cut after every line feed.
Headers, keys and the launcher are recognized without regard to case and to blanks anywhere in the
line.

A header `[LaunchApps]` without a line feed, at the end of the file, takes the launcher onto its own
line; and a line that is the launcher but for blanks inside the path passes for the launcher,
although it names another file. Apart from these texts the patch does what it is for.

## Main definitions

* `EasyDeployMesh.patchWinpeshlForAgent`: the patch.
* `EasyDeployMesh.LaunchesAgent`, `EasyDeployMesh.KeepsOtherLines`: what the patch is for.
* `EasyDeployMesh.PatchApplies`: the texts for which it is done.

## Main results

* `EasyDeployMesh.patchesWinpeshl_iff`: the patch does what it is for on exactly these texts.
-/

namespace EasyDeployMesh

open Foundations

/-! ### The patch -/

/-- `u8::to_ascii_lowercase`. -/
def toAsciiLowercaseByte (byte : UInt8) : UInt8 :=
  if 65 ≤ byte ∧ byte ≤ 90 then byte + 32 else byte

/-- A blank, a tab, a carriage return or a line feed. -/
def isLineBlank (byte : UInt8) : Bool := byte == 32 || byte == 9 || byte == 13 || byte == 10

/-- A line without its blanks, in lower case. -/
def normalized (line : List UInt8) : List UInt8 :=
  (line.filter fun byte => !isLineBlank byte).map toAsciiLowercaseByte

/-- The lines of a file, each with its line feed. -/
def winpeshlLines (input : List UInt8) : List (List UInt8) :=
  cutAfter (fun byte => byte == 10) [] input

/-- `EASYDEPLOYMESH_SHELL_LAUNCHER`. -/
def shellLauncher : List UInt8 := stringBytes "X:\\EasyDeployMesh\\easydeploymesh-shell.exe\r\n"

/-- The launcher, as a normalized line has it. -/
def launcherPath : List UInt8 := stringBytes "x:\\easydeploymesh\\easydeploymesh-shell.exe"

/-- The line that replaces the command of `[LaunchApp]`. -/
def launcherAppPath : List UInt8 :=
  stringBytes "AppPath = X:\\EasyDeployMesh\\easydeploymesh-shell.exe\r\n"

/-- The header of the section that lists programs. -/
def isLaunchApps (line : List UInt8) : Bool := normalized line == stringBytes "[launchapps]"

/-- The header of the section that names one program. -/
def isLaunchApp (line : List UInt8) : Bool := normalized line == stringBytes "[launchapp]"

/-- The lines up to the next header. -/
def sectionLines (lines : List (List UInt8)) : List (List UInt8) :=
  lines.takeWhile fun line => !(stringBytes "[").isPrefixOf (normalized line)

/-- The line that names the one program. -/
def isAppPath (line : List UInt8) : Bool := (stringBytes "apppath=").isPrefixOf (normalized line)

/-- The command behind the first equals sign of a line. -/
def appPathCommand (line : List UInt8) : List UInt8 :=
  let value := (line.dropWhile fun byte => byte != 61).drop 1
  (value.dropWhile fun byte => byte == 32 || byte == 9).rdropWhile isLineBlank

/-- The patched file and the script that takes over the old shell. -/
structure PatchedWinpeshl where
  ini : List UInt8
  originalShellScript : Option (List UInt8)
  deriving DecidableEq

/-- The script that runs the replaced command. -/
def shellScript (command : List UInt8) : List UInt8 :=
  stringBytes "@echo off\r\n" ++ command ++ stringBytes "\r\n"

/-- The patch of a file without `[LaunchApps]`. -/
def patchLaunchApp (input : List UInt8) : Except PxeServiceError PatchedWinpeshl :=
  match splitAtFirst isLaunchApp (winpeshlLines input) with
  | none =>
    .error (.invalidConfig "WinPE winpeshl.ini has neither [LaunchApp] nor [LaunchApps]")
  | some (before, header, after) =>
    match splitAtFirst isAppPath (sectionLines after) with
    | none => .error (.invalidConfig "WinPE [LaunchApp] has no AppPath")
    | some (front, line, _) =>
      let command := appPathCommand line
      if command.isEmpty then .error (.invalidConfig "WinPE [LaunchApp] AppPath is empty")
      else if normalized command = launcherPath then
        .ok { ini := input, originalShellScript := none }
      else
        .ok {
          ini := (before ++ header :: front ++ launcherAppPath ::
            after.drop (front.length + 1)).flatten
          originalShellScript := some (shellScript command) }

/-- The file with the Agent as the first program. -/
def patchWinpeshlForAgent (input : List UInt8) : Except PxeServiceError PatchedWinpeshl :=
  match splitAtFirst isLaunchApps (winpeshlLines input) with
  | some (before, header, after) =>
    if (sectionLines after).any fun line => normalized line == launcherPath then
      .ok { ini := input, originalShellScript := none }
    else
      .ok {
        ini := (before ++ header :: shellLauncher :: after).flatten
        originalShellScript := none }
  | none => patchLaunchApp input

/-! ### What the patch is for -/

/-- The text is the launcher, up to case and to blanks around it. -/
def IsLauncher (text : List UInt8) : Prop :=
  ((text.dropWhile isLineBlank).rdropWhile isLineBlank).map toAsciiLowercaseByte = launcherPath

instance (text : List UInt8) : Decidable (IsLauncher text) := by
  unfold IsLauncher
  infer_instance

/-- The command of the section `[LaunchApp]`. -/
def launchAppCommand (lines : List (List UInt8)) : Option (List UInt8) :=
  (splitAtFirst isLaunchApp lines).bind fun r =>
    (splitAtFirst isAppPath (sectionLines r.2.2)).map fun r => appPathCommand r.2.1

/-- The launch section of a file starts the launcher, on a line of its own. -/
def LaunchesAgent (ini : List UInt8) : Prop :=
  match splitAtFirst isLaunchApps (winpeshlLines ini) with
  | some (_, _, after) => ∃ line ∈ sectionLines after, IsLauncher line
  | none => ∃ command, launchAppCommand (winpeshlLines ini) = some command ∧ IsLauncher command

/-- All lines are kept, with one more for the launcher, or all but the line with the command of
`[LaunchApp]`, which is kept in the script. -/
inductive KeepsOtherLines (input : List UInt8) (result : PatchedWinpeshl) : Prop
  | unchanged (hini : result.ini = input) (hscript : result.originalShellScript = none)
  | inserted (before after : List (List UInt8)) (hinput : winpeshlLines input = before ++ after)
      (hini : winpeshlLines result.ini = before ++ shellLauncher :: after)
      (hscript : result.originalShellScript = none)
  | replaced (before after : List (List UInt8)) (line : List UInt8)
      (hinput : winpeshlLines input = before ++ line :: after)
      (hini : winpeshlLines result.ini = before ++ launcherAppPath :: after)
      (hcommand : launchAppCommand (winpeshlLines input) = some (appPathCommand line))
      (hscript : result.originalShellScript = some (shellScript (appPathCommand line)))

/-- The patch of a file does what it is for, and a second one does nothing. -/
structure PatchesWinpeshl (input : List UInt8) (result : PatchedWinpeshl) : Prop where
  launches : LaunchesAgent result.ini
  keeps : KeepsOtherLines input result
  again : patchWinpeshlForAgent result.ini = .ok { ini := result.ini, originalShellScript := none }

/-- What passes for the launcher is the launcher, and a header below which the launcher is added has
a line feed. -/
def PatchApplies (input : List UInt8) : Prop :=
  match splitAtFirst isLaunchApps (winpeshlLines input) with
  | some (_, header, after) =>
    if (sectionLines after).any fun line => normalized line == launcherPath then
      ∃ line ∈ sectionLines after, IsLauncher line
    else header.getLast? = some 10
  | none => ∀ command, launchAppCommand (winpeshlLines input) = some command →
      normalized command = launcherPath → IsLauncher command

/-! ### The lines of a patched file -/

private theorem wellCut_winpeshlLines (input : List UInt8) :
    WellCut (fun byte : UInt8 => byte == 10) (winpeshlLines input) :=
  wellCut_cutAfter fun _ h => absurd h List.not_mem_nil

private theorem winpeshlLines_flatten {lines : List (List UInt8)}
    (h : WellCut (fun byte : UInt8 => byte == 10) lines) : winpeshlLines lines.flatten = lines :=
  cutAfter_flatten h

private theorem terminated_shellLauncher :
    Terminated (fun byte : UInt8 => byte == 10) shellLauncher :=
  ⟨shellLauncher.dropLast, 10, by decide, rfl, by decide +kernel⟩

private theorem terminated_launcherAppPath :
    Terminated (fun byte : UInt8 => byte == 10) launcherAppPath :=
  ⟨launcherAppPath.dropLast, 10, by decide, rfl, by decide +kernel⟩

private theorem normalized_shellLauncher : normalized shellLauncher = launcherPath := by
  decide

private theorem isLauncher_shellLauncher : IsLauncher shellLauncher := by
  decide

private theorem appPathCommand_launcherAppPath :
    appPathCommand launcherAppPath =
      stringBytes "X:\\EasyDeployMesh\\easydeploymesh-shell.exe" := by
  decide

private theorem isLauncher_appPathCommand : IsLauncher (appPathCommand launcherAppPath) := by
  rw [appPathCommand_launcherAppPath]
  decide

section Lines

variable {input header line : List UInt8} {before after front lines : List (List UInt8)}

/-- A line that is no header belongs to the section, and so does what follows it. -/
private theorem sectionLines_append
    (h : ∀ line ∈ front, (stringBytes "[").isPrefixOf (normalized line) = false) :
    sectionLines (front ++ lines) = front ++ sectionLines lines :=
  List.takeWhile_append_of_pos fun line hline => by rw [h line hline, Bool.not_false]

private theorem sectionLines_shellLauncher :
    sectionLines (shellLauncher :: lines) = shellLauncher :: sectionLines lines :=
  List.takeWhile_cons_of_pos (by decide)

private theorem sectionLines_launcherAppPath :
    sectionLines (launcherAppPath :: lines) = launcherAppPath :: sectionLines lines :=
  List.takeWhile_cons_of_pos (by decide)

private theorem notHeader_of_mem_sectionLines (h : line ∈ sectionLines lines) :
    (stringBytes "[").isPrefixOf (normalized line) = false := by
  simpa using List.mem_takeWhile_imp h

/-- A header without a line feed is the end of the file. -/
private theorem getLast?_eq_or (h : winpeshlLines input = before ++ header :: after) :
    (Terminated (fun byte : UInt8 => byte == 10) header ∧ header.getLast? = some 10) ∨
      (after = [] ∧ (∀ byte ∈ header, (byte == 10) = false) ∧ header.getLast? ≠ some 10) := by
  rcases (h ▸ wellCut_winpeshlLines input).terminated_or with hline | ⟨hafter, -, hline⟩
  · refine .inl ⟨hline, ?_⟩
    obtain ⟨body, byte, rfl, hbyte, -⟩ := hline
    rw [List.getLast?_concat, beq_iff_eq.1 hbyte]
  · refine .inr ⟨hafter, hline, fun hlast => ?_⟩
    exact absurd (hline 10 (List.mem_of_getLast? hlast)) (by decide)

end Lines

/-! ### The three outcomes -/

section Outcomes

variable {input header line : List UInt8} {before after front rest : List (List UInt8)}

/-- An unchanged file is patched if it starts the launcher. -/
private theorem patchesWinpeshl_unchanged
    (h : patchWinpeshlForAgent input = .ok { ini := input, originalShellScript := none }) :
    PatchesWinpeshl input { ini := input, originalShellScript := none } ↔ LaunchesAgent input :=
  ⟨PatchesWinpeshl.launches, fun hlaunches => ⟨hlaunches, .unchanged rfl rfl, h⟩⟩

/-- The launcher is a line of its own behind a header with a line feed. -/
private theorem patchesWinpeshl_insert
    (h : splitAtFirst isLaunchApps (winpeshlLines input) = some (before, header, after))
    (hheader : Terminated (fun byte : UInt8 => byte == 10) header) :
    PatchesWinpeshl input {
      ini := (before ++ header :: shellLauncher :: after).flatten
      originalShellScript := none } := by
  obtain ⟨hlines, happs, hbefore⟩ := splitAtFirst_eq_some_iff.1 h
  have hini : winpeshlLines (before ++ header :: shellLauncher :: after).flatten =
      before ++ header :: shellLauncher :: after :=
    winpeshlLines_flatten
      ((hlines ▸ wellCut_winpeshlLines input).insert hheader terminated_shellLauncher)
  have hsplit : splitAtFirst isLaunchApps
      (winpeshlLines (before ++ header :: shellLauncher :: after).flatten) =
        some (before, header, shellLauncher :: after) :=
    splitAtFirst_eq_some_iff.2 ⟨hini, happs, hbefore⟩
  refine ⟨?_, .inserted (before ++ [header]) after ?_ ?_ rfl, ?_⟩
  · rw [LaunchesAgent, hsplit]
    refine ⟨shellLauncher, ?_, isLauncher_shellLauncher⟩
    rw [sectionLines_shellLauncher]
    exact List.mem_cons_self
  · rw [hlines, List.append_assoc, List.singleton_append]
  · rw [hini, List.append_assoc, List.singleton_append]
  · have hany : ((sectionLines (shellLauncher :: after)).any fun line =>
        normalized line == launcherPath) = true := by
      rw [sectionLines_shellLauncher, List.any_cons, normalized_shellLauncher, beq_self_eq_true,
        Bool.true_or]
    rw [patchWinpeshlForAgent, hsplit]
    dsimp only
    rw [if_pos hany]

/-- The launcher is put behind the last header itself when this has no line feed: no line is
added. -/
private theorem not_patchesWinpeshl_insert (hlines : winpeshlLines input = before ++ [header])
    (hheader : ∀ byte ∈ header, (byte == 10) = false) :
    ¬PatchesWinpeshl input {
      ini := (before ++ [header, shellLauncher]).flatten
      originalShellScript := none } := by
  have hflatten : (before ++ [header, shellLauncher]).flatten =
      (before ++ [header ++ shellLauncher]).flatten := by
    simp
  have hini : winpeshlLines (before ++ [header, shellLauncher]).flatten =
      before ++ [header ++ shellLauncher] := by
    rw [hflatten]
    exact winpeshlLines_flatten ((hlines ▸ wellCut_winpeshlLines input).replace
      (terminated_shellLauncher.append hheader))
  intro h
  rcases h.keeps with ⟨hsame, -⟩ | ⟨before', after', hinput, hinserted, -⟩ |
    ⟨before', after', line, -, -, -, hscript⟩
  · have hlines' : before ++ [header ++ shellLauncher] = before ++ [header] := by
      rw [← hini, ← hlines]
      exact congrArg winpeshlLines hsame
    have hsuffix := List.append_right_injective before hlines'
    have hempty : shellLauncher = [] := by simpa using hsuffix
    exact absurd hempty terminated_shellLauncher.ne_nil
  · -- one line more is claimed, but the files have the same number of lines
    have hcount := congrArg List.length hinserted
    have hcount' := congrArg List.length (hlines.symm.trans hinput)
    dsimp only at hcount
    rw [hini] at hcount
    simp only [List.length_append, List.length_cons, List.length_nil] at hcount hcount'
    omega
  · cases hscript

/-- The command of `[LaunchApp]` is replaced. -/
private theorem patchesWinpeshl_replace
    (happs : splitAtFirst isLaunchApps (winpeshlLines input) = none)
    (happ : splitAtFirst isLaunchApp (winpeshlLines input) = some (before, header, after))
    (hpath : splitAtFirst isAppPath (sectionLines after) = some (front, line, rest)) :
    PatchesWinpeshl input {
      ini := (before ++ header :: front ++ launcherAppPath :: after.drop (front.length + 1)).flatten
      originalShellScript := some (shellScript (appPathCommand line)) } := by
  obtain ⟨hlines, hheader, hbefore⟩ := splitAtFirst_eq_some_iff.1 happ
  obtain ⟨hsection, hline, hfront⟩ := splitAtFirst_eq_some_iff.1 hpath
  -- the lines of the section are the first ones behind the header
  obtain ⟨behind, hbehind⟩ : ∃ behind, after = front ++ line :: behind := by
    refine ⟨rest ++ after.dropWhile fun line => !(stringBytes "[").isPrefixOf (normalized line), ?_⟩
    rw [← List.cons_append, ← List.append_assoc, ← hsection]
    exact List.takeWhile_append_dropWhile.symm
  have hdrop : after.drop (front.length + 1) = behind := by
    rw [hbehind]
    simp
  rw [hdrop]
  have hinput : winpeshlLines input = before ++ header :: front ++ line :: behind := by
    rw [hlines, hbehind, List.append_assoc, List.cons_append]
  have hini : winpeshlLines (before ++ header :: front ++ launcherAppPath :: behind).flatten =
      before ++ header :: front ++ launcherAppPath :: behind :=
    winpeshlLines_flatten
      ((hinput ▸ wellCut_winpeshlLines input).replace terminated_launcherAppPath)
  have hnone : splitAtFirst isLaunchApps
      (winpeshlLines (before ++ header :: front ++ launcherAppPath :: behind).flatten) = none := by
    rw [hini]
    rw [hinput] at happs
    rw [splitAtFirst_eq_none_iff] at happs ⊢
    intro l hl
    rcases List.mem_append.1 hl with hl | hl
    · exact happs l (List.mem_append_left _ hl)
    · rcases List.mem_cons.1 hl with rfl | hl
      · decide
      · exact happs l (List.mem_append_right _ (List.mem_cons_of_mem _ hl))
  have happ' : splitAtFirst isLaunchApp
      (winpeshlLines (before ++ header :: front ++ launcherAppPath :: behind).flatten) =
        some (before, header, front ++ launcherAppPath :: behind) := by
    refine splitAtFirst_eq_some_iff.2 ⟨?_, hheader, hbefore⟩
    rw [hini, List.append_assoc, List.cons_append]
  have hpath' : splitAtFirst isAppPath (sectionLines (front ++ launcherAppPath :: behind)) =
      some (front, launcherAppPath, sectionLines behind) := by
    refine splitAtFirst_eq_some_iff.2 ⟨?_, by decide, hfront⟩
    rw [sectionLines_append, sectionLines_launcherAppPath]
    exact fun l hl => notHeader_of_mem_sectionLines (hsection ▸ List.mem_append_left _ hl)
  refine ⟨?_, .replaced (before ++ header :: front) behind line hinput hini ?_ rfl, ?_⟩
  · rw [LaunchesAgent, hnone]
    refine ⟨appPathCommand launcherAppPath, ?_, isLauncher_appPathCommand⟩
    rw [launchAppCommand, happ', Option.bind_some, hpath', Option.map_some]
  · rw [launchAppCommand, happ, Option.bind_some, hpath, Option.map_some]
  · rw [patchWinpeshlForAgent, hnone]
    dsimp only
    rw [patchLaunchApp, happ']
    dsimp only
    rw [hpath']
    dsimp only
    rw [if_neg (by rw [appPathCommand_launcherAppPath]; decide),
      if_pos (by rw [appPathCommand_launcherAppPath]; decide)]

/-! ### The texts for which the patch is done -/

private theorem patchesWinpeshl_iff_of_launchApps {result : PatchedWinpeshl}
    (hsplit : splitAtFirst isLaunchApps (winpeshlLines input) = some (before, header, after))
    (h : patchWinpeshlForAgent input = .ok result) :
    PatchesWinpeshl input result ↔ PatchApplies input := by
  have hrun := h
  rw [patchWinpeshlForAgent, hsplit] at hrun
  rw [PatchApplies, hsplit]
  dsimp only at hrun ⊢
  by_cases hany : ((sectionLines after).any fun line => normalized line == launcherPath) = true
  · rw [if_pos hany] at hrun ⊢
    cases hrun
    rw [patchesWinpeshl_unchanged h, LaunchesAgent, hsplit]
  · rw [if_neg hany] at hrun ⊢
    cases hrun
    have hlines := (splitAtFirst_eq_some_iff.1 hsplit).1
    rcases getLast?_eq_or hlines with ⟨hheader, hlast⟩ | ⟨rfl, hheader, hlast⟩
    · exact iff_of_true (patchesWinpeshl_insert hsplit hheader) hlast
    · exact iff_of_false (not_patchesWinpeshl_insert hlines hheader) hlast

private theorem patchesWinpeshl_iff_of_launchApp {result : PatchedWinpeshl}
    (happs : splitAtFirst isLaunchApps (winpeshlLines input) = none)
    (h : patchWinpeshlForAgent input = .ok result) :
    PatchesWinpeshl input result ↔ PatchApplies input := by
  have hrun := h
  rw [patchWinpeshlForAgent, happs] at hrun
  rw [PatchApplies, happs]
  dsimp only at hrun ⊢
  rw [patchLaunchApp] at hrun
  rcases happ : splitAtFirst isLaunchApp (winpeshlLines input) with _ | ⟨before, header, after⟩
  · rw [happ] at hrun
    cases hrun
  rw [happ] at hrun
  dsimp only at hrun
  rcases hpath : splitAtFirst isAppPath (sectionLines after) with _ | ⟨front, line, rest⟩
  · rw [hpath] at hrun
    cases hrun
  rw [hpath] at hrun
  dsimp only at hrun
  have hcommand : launchAppCommand (winpeshlLines input) = some (appPathCommand line) := by
    rw [launchAppCommand, happ, Option.bind_some, hpath, Option.map_some]
  by_cases hempty : (appPathCommand line).isEmpty = true
  · rw [if_pos hempty] at hrun
    cases hrun
  rw [if_neg hempty] at hrun
  by_cases hsame : normalized (appPathCommand line) = launcherPath
  · rw [if_pos hsame] at hrun
    cases hrun
    rw [patchesWinpeshl_unchanged h, LaunchesAgent, happs]
    simp only [hcommand, Option.some.injEq, forall_eq', exists_eq_left', hsame, forall_const]
  · rw [if_neg hsame] at hrun
    cases hrun
    refine iff_of_true (patchesWinpeshl_replace happs happ hpath) fun command hcommand' hsame' => ?_
    cases hcommand.symm.trans hcommand'
    exact absurd hsame' hsame

end Outcomes

/-- The patch of a file does what it is for if and only if the header below which it adds the
launcher has a line feed and what passes for the launcher is the launcher. -/
theorem patchesWinpeshl_iff (input : List UInt8) (result : PatchedWinpeshl)
    (h : patchWinpeshlForAgent input = .ok result) :
    PatchesWinpeshl input result ↔ PatchApplies input := by
  rcases hsplit : splitAtFirst isLaunchApps (winpeshlLines input) with _ | ⟨before, header, after⟩
  · exact patchesWinpeshl_iff_of_launchApp hsplit h
  · exact patchesWinpeshl_iff_of_launchApps hsplit h

/-- `[LaunchApps]` at the end of a file without a line feed takes the launcher onto its own line. -/
theorem not_patchesWinpeshl_launchApps :
    ¬∀ input result, patchWinpeshlForAgent input = .ok result → PatchesWinpeshl input result := by
  intro h
  have hrun : patchWinpeshlForAgent (stringBytes "[LaunchApps]") = .ok {
      ini := stringBytes "[LaunchApps]X:\\EasyDeployMesh\\easydeploymesh-shell.exe\r\n"
      originalShellScript := none } := by
    decide +kernel
  exact absurd (h _ _ hrun).again (by decide +kernel)

/-- The command of a file with `[LaunchApp]` is replaced. -/
theorem patchesWinpeshl_iff_command :
    PatchesWinpeshl (stringBytes "[LaunchApp]\nAppPath=a") {
      ini := stringBytes "[LaunchApp]\nAppPath = X:\\EasyDeployMesh\\easydeploymesh-shell.exe\r\n"
      originalShellScript := some (stringBytes "@echo off\r\na\r\n") } ↔
    PatchApplies (stringBytes "[LaunchApp]\nAppPath=a") :=
  patchesWinpeshl_iff _ _ (by decide +kernel)

end EasyDeployMesh
