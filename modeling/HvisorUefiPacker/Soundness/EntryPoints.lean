import HvisorUefiPacker.MakeLoongarch64

/-! # What the script says about the entry points

The loop over the zones assigns `ERROR` in a subshell, and the final test reads
the variable of the script itself.

* `checkNonrootZones_reports`: every listed zone is checked and reported on, and
  nothing else gets out of the loop.
* `makeLoongarch64_ends_iff`: the hosts on which the script gets to its end.
* `verdict_iff`: it passes the image set if the root zone's entry points match.
* `entryPoints_verified_iff`: that is right when they do not match, or all zones'
  do.
-/

namespace HvisorUefiPacker.MakeLoongarch64

open Shell

/-- The line that passes the image set. -/
def allMatch : Line := .success (text "All entry points match correctly!")

namespace Host

variable (host : Host)

/-- The root zone's two entry points are equal. -/
def RootMatches : Prop :=
  host.rootLinuxEntry host.hvisorLinuxSrc = host.rootZoneEntry host.hvisorSrcDir

/-- A zone's two entry points are equal. -/
def ZoneMatches (zone : Zone) : Prop :=
  host.linuxEntry host.hvisorLinuxSrc zone.name = host.jsonEntry host.buildrootDir zone.name

instance : Decidable host.RootMatches := inferInstanceAs (Decidable (_ = _))

instance (zone : Zone) : Decidable (host.ZoneMatches zone) := inferInstanceAs (Decidable (_ = _))

end Host

/-- `check_zone_entry_point` finds the two entry points of the zone equal. -/
def FoundEqual (host : Host) (environment : Environment) (zone : Zone) : Prop :=
  ∃ after output,
    Runs (checkZoneEntryPoint host zone.name zone.loadAddr) environment 0 after output

/-- The verdict is right: a run passes the image set exactly when the root zone's two entry
    points are equal and those of every listed zone were found equal. -/
def Verified (host : Host) (after : Environment) (output : List Line) : Prop :=
  allMatch ∈ output ↔
    after.rootLinuxEntry = after.rootZoneEntry ∧ ∀ zone ∈ host.nonroot, FoundEqual host after zone

structure Zone.WellFormed (zone : Zone) : Prop where
  name : Word zone.name
  loadAddr : Word zone.loadAddr

/-- The paths are those of the configuration. -/
structure Configured (host : Host) (environment : Environment) : Prop where
  hvisorSrcDir : environment.hvisorSrcDir = host.hvisorSrcDir
  hvisorLinuxSrc : environment.hvisorLinuxSrc = host.hvisorLinuxSrc
  buildrootDir : environment.buildrootDir = host.buildrootDir

/-- What `check_zone_entry_point` finds about a zone. -/
def zoneFinding (host : Host) (zone : Zone) : List Line :=
  if host.ZoneMatches zone then
    [.info (text "Entry point for " ++ zone.name ++ text " matches: " ++
      host.linuxEntry host.hvisorLinuxSrc zone.name)]
  else
    [.error (text "Entry point mismatch for " ++ zone.name ++ text ":"),
      .plain (text "  Linux ELF: " ++ host.linuxEntry host.hvisorLinuxSrc zone.name),
      .plain (text "  JSON:      " ++ host.jsonEntry host.buildrootDir zone.name)]

def zoneReport (host : Host) (zone : Zone) : List Line :=
  .plain (text "\n=== Checking Entry Point for Zone: " ++ zone.name ++ text " ===") ::
    zoneFinding host zone

/-- What is found about the root zone. -/
def rootFinding (host : Host) : List Line :=
  if host.RootMatches then
    [.success (text "Root zone entry point matches correctly!")]
  else
    [.error (text "Root Linux entry point mismatch:"),
      .plain (text "  Root Linux:    " ++ host.rootLinuxEntry host.hvisorLinuxSrc),
      .plain (text "  Root Zone:     " ++ host.rootZoneEntry host.hvisorSrcDir)]

section Zones

variable {host : Host} {environment : Environment} (configured : Configured host environment)

include configured

theorem checkZoneEntryPoint_runs (zone : Zone) :
    Runs (checkZoneEntryPoint host zone.name zone.loadAddr) environment
      (if host.ZoneMatches zone then 0 else 1) environment (zoneReport host zone) := by
  rw [checkZoneEntryPoint, zoneReport, printPlain, runs_echo_bind, runs_expand_bind]
  dsimp only
  rw [runs_expand_bind, configured.hvisorLinuxSrc, configured.buildrootDir, zoneFinding]
  by_cases equal : host.ZoneMatches zone
  · have same : host.linuxEntry host.hvisorLinuxSrc zone.name =
        host.jsonEntry host.buildrootDir zone.name := equal
    rw [if_pos equal, if_pos equal, if_neg (not_not.mpr same)]
    rfl
  · have differ : host.linuxEntry host.hvisorLinuxSrc zone.name ≠
        host.jsonEntry host.buildrootDir zone.name := equal
    rw [if_neg equal, if_neg equal, if_pos differ]
    rfl

theorem foundEqual_iff (zone : Zone) :
    FoundEqual host environment zone ↔ host.ZoneMatches zone := by
  have ran := checkZoneEntryPoint_runs configured zone
  constructor
  · rintro ⟨after, output, found⟩
    by_contra differ
    rw [if_neg differ] at ran
    cases found.symm.trans ran
  · intro equal
    rw [if_pos equal] at ran
    exact ⟨_, _, ran⟩

/-- One round of the loop, on a zone's line. -/
theorem checkNonrootZone_runs {zone : Zone} (wellFormed : zone.WellFormed) :
    Runs (checkNonrootZone host (zone.name ++ ' ' :: zone.loadAddr)) environment ()
      { environment with
        zoneName := zone.name
        loadAddr := zone.loadAddr
        error := if host.ZoneMatches zone then environment.error else 1 }
      (zoneReport host zone) := by
  have checked : Configured host { environment with
      zoneName := zone.name
      loadAddr := zone.loadAddr } := { configured with }
  rw [checkNonrootZone, readTwo_words wellFormed.name wellFormed.loadAddr]
  dsimp only
  rw [runs_assign_bind, if_neg (not_or.mpr ⟨wellFormed.name.nonempty, wellFormed.loadAddr.nonempty⟩),
    runs_bind]
  refine ⟨_, _, zoneReport host zone, [], checkZoneEntryPoint_runs checked zone, ?_,
    (List.append_nil _).symm⟩
  by_cases equal : host.ZoneMatches zone
  · rw [if_pos equal, if_pos equal]
    rfl
  · rw [if_neg equal, if_neg equal]
    rfl

/-- In the subshell of the loop every listed zone is checked, and `ERROR` is right. -/
theorem whileRead_runs (wellFormed : ∀ zone ∈ host.nonroot, zone.WellFormed) :
    ∃ after,
      Runs (whileRead (checkNonrootZone host) (lines (jq host.nonroot))) environment () after
          (host.nonroot.flatMap (zoneReport host)) ∧
        (after.error = 0 ↔
          environment.error = 0 ∧ ∀ zone ∈ host.nonroot, host.ZoneMatches zone) := by
  have oneLine : ∀ zone ∈ host.nonroot, '\n' ∉ zone.name ++ ' ' :: zone.loadAddr := by
    intro zone listed newline
    rcases List.mem_append.mp newline with inName | behind
    · cases (wellFormed zone listed).name.unbroken '\n' inName
    · rcases List.mem_cons.mp behind with space | inAddress
      · exact absurd space (by decide)
      · cases (wellFormed zone listed).loadAddr.unbroken '\n' inAddress
  rw [jq, lines_flatMap oneLine]
  have round : ∀ (done : List Zone) (zone : Zone) (before : Environment), zone ∈ host.nonroot →
      Configured host before ∧
        (before.error = 0 ↔ environment.error = 0 ∧ ∀ other ∈ done, host.ZoneMatches other) →
      ∃ after, Runs (checkNonrootZone host (zone.name ++ ' ' :: zone.loadAddr)) before () after
          (zoneReport host zone) ∧
        Configured host after ∧
          (after.error = 0 ↔
            environment.error = 0 ∧ ∀ other ∈ done ++ [zone], host.ZoneMatches other) := by
    rintro done zone before listed ⟨configuredBefore, errors⟩
    refine ⟨_, checkNonrootZone_runs configuredBefore (wellFormed zone listed),
      ⟨configuredBefore.hvisorSrcDir, configuredBefore.hvisorLinuxSrc,
        configuredBefore.buildrootDir⟩, ?_⟩
    dsimp only
    by_cases equal : host.ZoneMatches zone
    · rw [if_pos equal, errors]
      simp [or_imp, forall_and, equal]
    · rw [if_neg equal]
      simp [equal]
  obtain ⟨after, ran, -, errors⟩ := runs_whileRead _ round ⟨configured, by simp⟩
  exact ⟨after, ran, errors⟩

/-- Of the loop only the reports get out: the environment is what it was. -/
theorem checkNonrootZones_reports (wellFormed : ∀ zone ∈ host.nonroot, zone.WellFormed) :
    Runs (checkNonrootZones host) environment () environment
      (host.nonroot.flatMap (zoneReport host)) := by
  obtain ⟨after, ran, -⟩ := whileRead_runs configured wellFormed
  exact runs_subshell.mpr ⟨rfl, (congrArg Result.output ran).symm⟩

theorem checkRootZone_runs :
    Runs (checkRootZone host) environment ()
      { environment with
        error := if host.RootMatches then 0 else 1
        rootLinuxEntry := host.rootLinuxEntry host.hvisorLinuxSrc
        rootZoneEntry := host.rootZoneEntry host.hvisorSrcDir }
      (.plain (text "\n=== Checking Zone Entry Points ===") :: rootFinding host) := by
  rw [checkRootZone, printPlain, runs_echo_bind, runs_assign_bind, runs_assign_bind,
    runs_assign_bind, runs_expand_bind, runs_expand_bind]
  dsimp only
  simp only [configured.hvisorLinuxSrc, configured.hvisorSrcDir]
  rw [rootFinding]
  by_cases equal : host.RootMatches
  · have same : host.rootLinuxEntry host.hvisorLinuxSrc = host.rootZoneEntry host.hvisorSrcDir :=
      equal
    rw [if_pos equal, if_pos equal, if_neg (not_not.mpr same)]
    rfl
  · have differ : host.rootLinuxEntry host.hvisorLinuxSrc ≠ host.rootZoneEntry host.hvisorSrcDir :=
      equal
    rw [if_neg equal, if_neg equal, if_pos differ]
    rfl

end Zones

/-! ## Where the passing line comes from -/

/-- No run of the script writes the line that passes the image set. -/
abbrev Withholds {α : Type} (script : Script α) : Prop := Writes (· ≠ allMatch) script

/-- Nor does it assign anything. -/
structure Harmless {α : Type} (script : Script α) : Prop where
  withholds : Withholds script
  inert : Inert script

section Harmless

variable {α β : Type}

theorem Harmless.bind {first : Script α} {next : α → Script β} (leads : Harmless first)
    (follows : ∀ value, Harmless (next value)) : Harmless (first >>= next) :=
  ⟨leads.withholds.bind fun value => (follows value).withholds,
    leads.inert.bind fun value => (follows value).inert⟩

theorem harmless_pure (value : α) : Harmless (pure value : Script α) :=
  ⟨writes_silent fun _ => rfl, fun _ => rfl⟩

theorem harmless_expand (value : Environment → α) : Harmless (expand value : Script α) :=
  ⟨writes_silent fun _ => rfl, fun _ => rfl⟩

theorem harmless_printPlain (message : Text) : Harmless (printPlain message) :=
  ⟨writes_echo nofun, fun _ => rfl⟩

theorem harmless_printError (message : Text) : Harmless (printError message) :=
  ⟨writes_echo nofun, fun _ => rfl⟩

theorem harmless_printInfo (message : Text) : Harmless (printInfo message) :=
  ⟨writes_echo nofun, fun _ => rfl⟩

theorem harmless_require (passes : Bool) (messages : List Text) :
    Harmless (require passes messages) := by
  unfold require fail
  split
  · exact harmless_pure ()
  · have errors : ∀ line ∈ messages.map Line.error, line ≠ allMatch := by
      intro line member
      obtain ⟨message, -, rfl⟩ := List.mem_map.mp member
      exact nofun
    exact ⟨(writes_echoAll errors).bind fun _ => writes_silent fun _ => rfl, fun _ => rfl⟩

theorem harmless_checkHost (host : Host) : Harmless (checkHost host) := by
  refine (harmless_require _ _).bind fun _ => ?_
  refine (harmless_expand _).bind fun hvisorLinuxSrc => ?_
  refine (harmless_require _ _).bind fun _ => ?_
  refine (harmless_expand _).bind fun buildrootDir => ?_
  refine (harmless_require _ _).bind fun _ => ?_
  refine (harmless_expand _).bind fun hvisorSrcDir => ?_
  refine (harmless_require _ _).bind fun _ => ?_
  refine (harmless_require _ _).bind fun _ => ?_
  exact harmless_require _ _

theorem harmless_showSystem (host : Host) : Harmless (showSystem host) := by
  refine (harmless_require _ _).bind fun _ => ?_
  refine (harmless_expand _).bind fun hvisorLinuxSrc => ?_
  refine (harmless_expand _).bind fun hvisorSrcDir => ?_
  refine (harmless_printPlain _).bind fun _ => ?_
  refine (harmless_printPlain _).bind fun _ => ?_
  refine (harmless_printPlain _).bind fun _ => ?_
  refine (harmless_printPlain _).bind fun _ => ?_
  exact harmless_printPlain _

theorem harmless_checkZoneEntryPoint (host : Host) (zoneName loadAddr : Text) :
    Harmless (checkZoneEntryPoint host zoneName loadAddr) := by
  refine (harmless_printPlain _).bind fun _ => ?_
  refine (harmless_expand _).bind fun hvisorLinuxSrc => ?_
  refine (harmless_expand _).bind fun buildrootDir => ?_
  dsimp only
  split
  · refine (harmless_printError _).bind fun _ => ?_
    refine (harmless_printPlain _).bind fun _ => ?_
    exact (harmless_printPlain _).bind fun _ => harmless_pure 1
  · exact (harmless_printInfo _).bind fun _ => harmless_pure 0

/-- The loop assigns, but not outside its subshell. -/
theorem harmless_checkNonrootZones (host : Host) : Harmless (checkNonrootZones host) := by
  have assigns : ∀ update, Withholds (assign update : Script Unit) :=
    fun _ => writes_silent fun _ => rfl
  refine ⟨(Writes.whileRead (fun line => ?_) _).subshell, fun _ => rfl⟩
  refine (assigns _).bind fun _ => ?_
  split
  · exact (harmless_pure ()).withholds
  · refine (harmless_checkZoneEntryPoint host _ _).withholds.bind fun status => ?_
    split
    · exact assigns _
    · exact (harmless_pure ()).withholds

end Harmless

theorem allMatch_ne_plain (message : Text) : allMatch ≠ .plain message := nofun

theorem allMatch_ne_makeImage : allMatch ≠ .makeImage := nofun

theorem rootFinding_ne_allMatch (host : Host) : ∀ line ∈ rootFinding host, line ≠ allMatch := by
  intro line found
  rw [rootFinding] at found
  split at found
  · rw [List.mem_singleton.mp found]
    decide
  · simp only [List.mem_cons, List.not_mem_nil, or_false] at found
    rcases found with rfl | rfl | rfl <;> exact nofun

/-! ## Which runs get to the end -/

/-- What the script requires of the host. -/
structure Ready (host : Host) : Prop where
  hasJq : host.hasJq = true
  hvisorLinuxSrc : host.isDirectory host.hvisorLinuxSrc = true
  buildrootDir : host.isDirectory host.buildrootDir = true
  hvisorSrcDir : host.isDirectory host.hvisorSrcDir = true
  configFile : host.isFile (text ".config") = true
  arch : substitution (grepStart (text "CONFIG_TARGET_ARCH_LOONGARCH64=") host.config) =
    text "CONFIG_TARGET_ARCH_LOONGARCH64=y"
  zonesConfig : host.isFile (text "zones.json") = true

section Ready

variable {α : Type} {host : Host} {before after : Environment} {output : List Line} {passes : Bool}
  {messages : List Text}

theorem runs_require :
    Runs (require passes messages) before () after output ↔
      passes = true ∧ after = before ∧ output = [] := by
  cases passes with
  | false =>
    constructor
    · intro ran
      obtain ⟨_, middle, written, rest, -, exits, -⟩ := runs_bind.mp ran
      cases not_runs_exit exits
    · rintro ⟨fails, -⟩
      cases fails
  | true => simp [require, runs_pure]

theorem runs_require_bind {next : Unit → Script α} {result : α} :
    Runs (require passes messages >>= next) before result after output ↔
      passes = true ∧ Runs (next ()) before result after output := by
  rw [runs_bind]
  constructor
  · rintro ⟨_, middle, written, rest, required, ran, rfl⟩
    obtain ⟨holds, rfl, rfl⟩ := runs_require.mp required
    exact ⟨holds, ran⟩
  · rintro ⟨holds, ran⟩
    exact ⟨(), before, [], output, runs_require.mpr ⟨holds, rfl, rfl⟩, ran, rfl⟩

theorem runs_checkHost (configured : Configured host before) :
    Runs (checkHost host) before () before output ↔
      (host.hasJq = true ∧ host.isDirectory host.hvisorLinuxSrc = true ∧
        host.isDirectory host.buildrootDir = true ∧ host.isDirectory host.hvisorSrcDir = true ∧
        host.isFile (text ".config") = true ∧
        substitution (grepStart (text "CONFIG_TARGET_ARCH_LOONGARCH64=") host.config) =
          text "CONFIG_TARGET_ARCH_LOONGARCH64=y") ∧ output = [] := by
  rw [checkHost, runs_require_bind, runs_expand_bind, runs_require_bind, runs_expand_bind,
    runs_require_bind, runs_expand_bind, runs_require_bind, runs_require_bind, runs_require,
    configured.hvisorLinuxSrc, configured.buildrootDir, configured.hvisorSrcDir]
  simp [and_assoc]

theorem showSystem_runs_iff :
    (∃ output, Runs (showSystem host) before () before output) ↔
      host.isFile (text "zones.json") = true := by
  simp only [showSystem, runs_require_bind, exists_and_left]
  exact and_iff_left ⟨_, rfl⟩

end Ready

/-! ## The verdict -/

/-- Where the configuration is read. -/
def withConfig (host : Host) (before : Environment) : Environment :=
  { before with
    hvisorSrcDir := host.hvisorSrcDir
    hvisorLinuxSrc := host.hvisorLinuxSrc
    buildrootDir := host.buildrootDir }

/-- Where the root zone is checked too. -/
def withRoot (host : Host) (before : Environment) : Environment :=
  { withConfig host before with
    error := if host.RootMatches then 0 else 1
    rootLinuxEntry := host.rootLinuxEntry host.hvisorLinuxSrc
    rootZoneEntry := host.rootZoneEntry host.hvisorSrcDir }

theorem withConfig_configured (host : Host) (before : Environment) :
    Configured host (withConfig host before) := by
  constructor <;> simp only [withConfig]

theorem withRoot_configured (host : Host) (before : Environment) :
    Configured host (withRoot host before) := by
  constructor <;> simp only [withRoot, withConfig]

section Verdict

variable {host : Host} {before after : Environment} {output : List Line}

theorem runs_verdict :
    Runs verdict before () after output ↔
      after = before ∧ output = if before.error = 0 then [allMatch] else [] := by
  rw [verdict, runs_expand_bind]
  by_cases passed : before.error = 0
  · rw [if_pos passed, if_pos passed]
    change Runs (echo allMatch) before () after output ↔ _
    exact runs_echo
  · rw [if_neg passed, if_neg passed, runs_pure]
    simp

/-- A run of the script, command by command.  Of these commands only the root zone's
    check leaves an assignment behind. -/
theorem runs_makeLoongarch64 :
    Runs (makeLoongarch64 host) before () after output ↔
      ∃ checking showing looping,
        Runs (checkHost host) (withConfig host before) () (withConfig host before) checking ∧
        Runs (showSystem host) (withConfig host before) () (withConfig host before) showing ∧
        Runs (checkNonrootZones host) (withRoot host before) () (withRoot host before) looping ∧
        after = withRoot host before ∧
        output = checking ++ .makeImage :: (showing ++
          .plain (text "\n=== Checking Zone Entry Points ===") :: (rootFinding host ++ (looping ++
            ((if host.RootMatches then [allMatch] else []) ++
              [.plain (text "\n✓ Script completed successfully")])))) := by
  have rootRuns : Runs (checkRootZone host) (withConfig host before) () (withRoot host before) _ :=
    checkRootZone_runs (withConfig_configured host before)
  have judged : (withRoot host before).error = 0 ↔ host.RootMatches := by
    simp [withRoot]
  rw [makeLoongarch64, readConfig, runs_assign_bind]
  change Runs _ (withConfig host before) () after output ↔ _
  constructor
  · intro ran
    obtain ⟨_, checked, checking, _, checkRan, fromMake, rfl⟩ := runs_bind.mp ran
    obtain rfl := (harmless_checkHost host).inert.of_runs checkRan
    obtain ⟨_, made, making, _, makeRan, fromShow, rfl⟩ := runs_bind.mp fromMake
    obtain ⟨rfl, rfl⟩ := runs_echo.mp makeRan
    obtain ⟨_, shown, showing, _, showRan, fromRoot, rfl⟩ := runs_bind.mp fromShow
    obtain rfl := (harmless_showSystem host).inert.of_runs showRan
    obtain ⟨_, rooted, rooting, _, rootRan, fromLoop, rfl⟩ := runs_bind.mp fromRoot
    obtain ⟨-, rfl, rfl⟩ := rootRuns.unique rootRan
    obtain ⟨_, looped, looping, _, loopRan, fromVerdict, rfl⟩ := runs_bind.mp fromLoop
    obtain rfl := (harmless_checkNonrootZones host).inert.of_runs loopRan
    obtain ⟨_, final, judging, _, judgeRan, fromEnd, rfl⟩ := runs_bind.mp fromVerdict
    obtain ⟨rfl, rfl⟩ := runs_verdict.mp judgeRan
    obtain ⟨rfl, rfl⟩ := runs_echo.mp fromEnd
    refine ⟨checking, showing, looping, checkRan, showRan, loopRan, rfl, ?_⟩
    rw [if_congr judged rfl rfl]
    rfl
  · rintro ⟨checking, showing, looping, checkRan, showRan, loopRan, rfl, rfl⟩
    have judgeRan : Runs verdict (withRoot host before) () (withRoot host before)
        (if host.RootMatches then [allMatch] else []) := by
      rw [runs_verdict, if_congr judged rfl rfl]
      exact ⟨rfl, rfl⟩
    refine runs_bind.mpr ⟨(), _, checking, _, checkRan, ?_, rfl⟩
    refine runs_echo_bind.mpr ?_
    refine runs_bind.mpr ⟨(), _, showing, _, showRan, ?_, rfl⟩
    refine runs_bind.mpr ⟨(), _, _, _, rootRuns, ?_, rfl⟩
    refine runs_bind.mpr ⟨(), _, looping, _, loopRan, ?_, rfl⟩
    refine runs_bind.mpr ⟨(), _, _, _, judgeRan, ?_, rfl⟩
    exact runs_echo.mpr ⟨rfl, rfl⟩

/-- The script gets to its end on the hosts that have what it requires. -/
theorem makeLoongarch64_ends_iff :
    (∃ after output, Runs (makeLoongarch64 host) before () after output) ↔ Ready host := by
  have configured := withConfig_configured host before
  constructor
  · rintro ⟨after, output, ran⟩
    obtain ⟨checking, showing, -, checkRan, showRan, -⟩ := runs_makeLoongarch64.mp ran
    obtain ⟨⟨hasJq, linuxDir, buildrootDir, hvisorDir, configFile, arch⟩, -⟩ :=
      (runs_checkHost configured).mp checkRan
    exact ⟨hasJq, linuxDir, buildrootDir, hvisorDir, configFile, arch,
      showSystem_runs_iff.mp ⟨showing, showRan⟩⟩
  · intro ready
    have checkRan := (runs_checkHost configured).mpr
      ⟨⟨ready.hasJq, ready.hvisorLinuxSrc, ready.buildrootDir, ready.hvisorSrcDir,
        ready.configFile, ready.arch⟩, rfl⟩
    obtain ⟨showing, showRan⟩ := showSystem_runs_iff.mpr ready.zonesConfig
    have loopRan : Runs (checkNonrootZones host) (withRoot host before) () (withRoot host before) _ :=
      runs_subshell.mpr ⟨rfl, rfl⟩
    exact ⟨_, _, runs_makeLoongarch64.mpr ⟨[], showing, _, checkRan, showRan, loopRan, rfl, rfl⟩⟩

/-- A run passes the image set if and only if the root zone's entry points match. -/
theorem verdict_iff (ran : Runs (makeLoongarch64 host) before () after output) :
    Configured host after ∧
      after.rootLinuxEntry = host.rootLinuxEntry host.hvisorLinuxSrc ∧
      after.rootZoneEntry = host.rootZoneEntry host.hvisorSrcDir ∧
      (allMatch ∈ output ↔ host.RootMatches) := by
  obtain ⟨checking, showing, looping, checkRan, showRan, loopRan, rfl, rfl⟩ :=
    runs_makeLoongarch64.mp ran
  refine ⟨withRoot_configured host before, by simp only [withRoot], by simp only [withRoot], ?_⟩
  have unwritten : ∀ {written : List Line}, (∀ line ∈ written, line ≠ allMatch) →
      allMatch ∉ written := fun others member => others allMatch member rfl
  have notChecking := unwritten ((harmless_checkHost host).withholds.of_runs checkRan)
  have notShowing := unwritten ((harmless_showSystem host).withholds.of_runs showRan)
  have notRooting := unwritten (rootFinding_ne_allMatch host)
  have notLooping := unwritten ((harmless_checkNonrootZones host).withholds.of_runs loopRan)
  by_cases equal : host.RootMatches
  · simp [equal]
  · simp [equal, notChecking, notShowing, notRooting, notLooping, allMatch_ne_plain,
      allMatch_ne_makeImage]

/-- The script passes the image set exactly when all entry points were found equal, if and
    only if the root zone's are not equal, or those of all listed zones are. -/
theorem entryPoints_verified_iff (ran : Runs (makeLoongarch64 host) before () after output) :
    Verified host after output ↔
      ¬ host.RootMatches ∨ ∀ zone ∈ host.nonroot, host.ZoneMatches zone := by
  obtain ⟨configured, linuxRead, zoneRead, passes⟩ := verdict_iff ran
  have found : (∀ zone ∈ host.nonroot, FoundEqual host after zone) ↔
      ∀ zone ∈ host.nonroot, host.ZoneMatches zone :=
    forall₂_congr fun zone _ => foundEqual_iff configured zone
  rw [Verified, passes, found, linuxRead, zoneRead, ← imp_iff_not_or]
  constructor
  · intro verified equal
    exact (verified.mp equal).2
  · intro zonesMatch
    constructor
    · intro equal
      exact ⟨equal, zonesMatch equal⟩
    · rintro ⟨equal, -⟩
      exact equal

end Verdict

/-! ## A host with one zone -/

def oneZoneConfig : Text :=
  text "CONFIG_TARGET_ARCH_LOONGARCH64=y\n" ++ text "CONFIG_HVISOR_SRC_DIR=\"/hvisor\"\n" ++
    text "CONFIG_HVISOR_LA64_LINUX_DIR=\"/linux\"\n" ++ text "CONFIG_BUILDROOT_DIR=\"/buildroot\"\n"

/-- A machine with one zone besides the root zone, `linux1`, whose JSON file says that its
    entry point is `jsonEntry`; all the others are the same. -/
def oneZone (jsonEntry : String) : Host where
  hasJq := true
  isFile _ := true
  isDirectory _ := true
  config := oneZoneConfig
  nonroot := [⟨text "linux1", text "0x90000000c0200000"⟩]
  contents path :=
    if path = text "/linux/target/root/vmlinux.readelf.txt" ∨
        path = text "/linux/target/nonroot-linux1/vmlinux.readelf.txt" then
      text "  Entry point address:  " ++ text "             0x9000000000f5c000\n"
    else if path = text "/hvisor/platform/loongarch64/ls3a5000/board.rs" then
      text "pub const ROOT_ZONE_ENTRY: " ++ text "u64 = 0x9000000000f5c000;\n"
    else if path = text "/buildroot/rootfs_ramdisk_overlay/tool/linux1.json" then
      text "    \"entry_point\": \"" ++ text jsonEntry ++ text "\",\n"
    else []
  words path := [path]

def fresh : Environment := ⟨[], [], [], 0, [], [], [], []⟩

theorem oneZone_ready (jsonEntry : String) : Ready (oneZone jsonEntry) where
  hasJq := rfl
  hvisorLinuxSrc := rfl
  buildrootDir := rfl
  hvisorSrcDir := rfl
  configFile := rfl
  arch := by
    change substitution (grepStart _ oneZoneConfig) = _
    decide +kernel
  zonesConfig := rfl

theorem entryPoints_verified_iff_oneZone :
    ∃ after output,
      Runs (makeLoongarch64 (oneZone "0x9000000000f5c000")) fresh () after output ∧
        Verified (oneZone "0x9000000000f5c000") after output := by
  obtain ⟨after, output, ran⟩ := makeLoongarch64_ends_iff.mpr (oneZone_ready "0x9000000000f5c000")
  refine ⟨after, output, ran, (entryPoints_verified_iff ran).mpr (.inr ?_)⟩
  decide +kernel

/-- The JSON file of `linux1` says another entry point, and the image set passes. -/
theorem mismatch_passes :
    (∀ zone ∈ (oneZone "0x9000000000f5d000").nonroot, zone.WellFormed) ∧
      ∃ after output,
        Runs (makeLoongarch64 (oneZone "0x9000000000f5d000")) fresh () after output ∧
          allMatch ∈ output ∧
          ¬ (∀ zone ∈ (oneZone "0x9000000000f5d000").nonroot,
            FoundEqual (oneZone "0x9000000000f5d000") after zone) ∧
          ¬ Verified (oneZone "0x9000000000f5d000") after output := by
  constructor
  · intro zone listed
    cases List.mem_singleton.mp listed
    exact ⟨by decide +kernel, by decide +kernel⟩
  · obtain ⟨after, output, ran⟩ := makeLoongarch64_ends_iff.mpr (oneZone_ready "0x9000000000f5d000")
    obtain ⟨configured, -, -, passes⟩ := verdict_iff ran
    have passed : allMatch ∈ output := passes.mpr (by decide +kernel)
    have differs : ¬ (∀ zone ∈ (oneZone "0x9000000000f5d000").nonroot,
        FoundEqual (oneZone "0x9000000000f5d000") after zone) := by
      intro allEqual
      have equal := (foundEqual_iff configured _).mp (allEqual _ List.mem_cons_self)
      revert equal
      decide +kernel
    exact ⟨after, output, ran, passed, differs,
      fun verified => differs (verified.mp passed).2⟩

end HvisorUefiPacker.MakeLoongarch64
