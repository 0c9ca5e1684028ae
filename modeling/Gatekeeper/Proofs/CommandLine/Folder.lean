import Gatekeeper.CommandLine.Run
import Gatekeeper.Proofs.Outcome

/-!
# The folder of the environment

One variable of the environment names the policy folder. Settings take it over themselves, and the
arguments of a run take it where they name no folder. Both keep it as it is and ask the same of the
settings that come out. They differ in what they ask of the variable: the settings refuse a text of
blanks, the arguments an empty one only.
-/

set_option autoImplicit false

namespace Gatekeeper

namespace Settings

def withFolder (s : Settings) (folder : String) : Settings := { s with folder }

variable {s s' base : Settings} {dir text : String}

theorem validate_eq_ok : s.validate = .ok () ↔ s.fault? = none := by
  unfold validate
  split <;> simp [*]

theorem validated_eq_ok : s.validated = .ok s' ↔ s.fault? = none ∧ s = s' := by
  simp only [validated, bind_eq_ok, pure_eq_ok, ← validate_eq_ok]
  exact ⟨fun ⟨_, valid, same⟩ => ⟨valid, same⟩, fun ⟨valid, same⟩ => ⟨(), valid, same⟩⟩

theorem standard_faultless : standard.fault? = none := by decide

theorem ofToml_faultless (read : ofToml text = .ok s) : s.fault? = none := by
  unfold ofToml at read
  split at read
  · obtain ⟨faultless, rfl⟩ := validated_eq_ok.1 read
    exact faultless
  · cases read

/-- No fault lies in a folder that has a name. -/
theorem withFolder_faultless (faultless : base.fault? = none) (filled : dir ≠ "") :
    (base.withFolder dir).fault? = none := by
  unfold fault? at faultless ⊢
  rw [if_neg (show (base.withFolder dir).folder ≠ "" from filled)]
  split at faultless
  · cases faultless
  · exact faultless

theorem withFolder_validated (faultless : base.fault? = none) (filled : dir ≠ "") :
    (base.withFolder dir).validated = .ok (base.withFolder dir) :=
  validated_eq_ok.2 ⟨withFolder_faultless faultless filled, rfl⟩

theorem withEnvironment_blank (blank : allBlank dir = true) :
    base.withEnvironment (some dir) =
      .error (.configuration (.blankOverride folderVariable)) := by
  rw [withEnvironment, if_pos blank]

theorem withEnvironment_filled (faultless : base.fault? = none) (solid : allBlank dir = false) :
    base.withEnvironment (some dir) = .ok (base.withFolder dir) := by
  have filled : dir ≠ "" := by
    rintro rfl
    cases solid
  rw [withEnvironment, if_neg (by simp [solid])]
  exact withFolder_validated faultless filled

end Settings

namespace CommandLine

variable {arguments : List String} {i : Invocation} {base : Settings} {dir file : String}
variable {readFile : String → Except ReadFailure String}

theorem settingsOfFile_faultless {contents : Except ReadFailure String}
    (read : settingsOfFile file contents = .ok base) : base.fault? = none := by
  cases contents with
  | ok text => exact Settings.ofToml_faultless read
  | error failure => cases read

namespace Invocation

def withFolder (i : Invocation) (folder : String) : Invocation := { i with policies := some folder }

structure Plain (i : Invocation) : Prop where
  policies : i.policies = none
  ruleFold : i.ruleFold = none
  duplicates : i.allowDuplicateIds = false

theorem baseSettings_faultless (start : i.baseSettings readFile = .ok base) :
    base.fault? = none := by
  unfold baseSettings at start
  split at start
  · cases start
    exact Settings.standard_faultless
  · rename_i file _
    cases read : settingsOfFile file (readFile file) with
    | ok s =>
      rw [read] at start
      cases start
      exact settingsOfFile_faultless read
    | error e =>
      rw [read] at start
      cases start

theorem folderOf_environment (after before : Given) (filled : dir ≠ "") :
    folderOf after before (some dir) =
      (folderOf after before none).map fun folder => folder.or (some dir) := by
  simp [folderOf, filled, Except.map]

/-- The variable counts for what an option would that names the folder, if there is none. -/
theorem read_environment (arguments : List String) (filled : dir ≠ "") :
    read arguments (some dir) = (read arguments none).map fun i =>
      { i with policies := i.policies.or (some dir) } := by
  unfold read
  simp only [folderOf_environment _ _ filled, bind, Except.bind]
  rcases readOptions (flagsAt none) .start arguments with refusal | ⟨before, _ | ⟨name, rest⟩⟩
  · rfl
  · rfl
  dsimp only
  cases Command.ofName? name with
  | none => rfl
  | some command =>
    dsimp only
    rcases readOptions (flagsAt (some command)) .start rest with refusal | ⟨after, _ | _⟩
    · rfl
    · dsimp only
      cases after.settle with
      | error refusal => rfl
      | ok after =>
        cases before.settle with
        | error refusal => rfl
        | ok before =>
          dsimp only
          cases requestOf command after with
          | error refusal => rfl
          | ok request => cases folderOf after before none <;> rfl
    · rfl

theorem read_withFolder (named : read arguments none = .ok i) (plain : i.Plain)
    (filled : dir ≠ "") : read arguments (some dir) = .ok (i.withFolder dir) := by
  rw [read_environment arguments filled, named]
  show Except.ok { i with policies := i.policies.or (some dir) } = _
  rw [plain.policies]
  rfl

theorem applyOptions_withFolder (plain : i.Plain) (faultless : base.fault? = none)
    (filled : dir ≠ "") : (i.withFolder dir).applyOptions base = .ok (base.withFolder dir) := by
  have fold : (i.withFolder dir).ruleFold = none := plain.ruleFold
  have duplicates : (i.withFolder dir).allowDuplicateIds = false := plain.duplicates
  have valid := Settings.withFolder_validated faultless filled
  simp only [applyOptions, fold, duplicates]
  exact congrArg (Except.mapError Failure.settings) valid

theorem resolveSettings_withFolder (plain : i.Plain)
    (start : i.baseSettings readFile = .ok base) (filled : dir ≠ "") :
    (i.withFolder dir).resolveSettings readFile = .ok (base.withFolder dir) := by
  show (i.baseSettings readFile >>= (i.withFolder dir).applyOptions) = _
  rw [start]
  exact applyOptions_withFolder plain (baseSettings_faultless start) filled

end Invocation

/-- Arguments that name no folder and change no setting take the variable for the folder, whatever
it says, and the settings of the run are those it starts from, with this folder, and are in order.
Settings that take the variable themselves come out the same, unless it is blank: then they refuse
it, and the run goes on. So the two agree exactly on variables that are not blank. -/
theorem folder_variable_agreement (named : Invocation.read arguments none = .ok i)
    (plain : i.Plain) (start : i.baseSettings readFile = .ok base) (filled : dir ≠ "") :
    Invocation.read arguments (some dir) = .ok (i.withFolder dir) ∧
    (i.withFolder dir).resolveSettings readFile = .ok (base.withFolder dir) ∧
    (base.withFolder dir).validate = .ok () ∧
    (allBlank dir = false → base.withEnvironment (some dir) = .ok (base.withFolder dir)) ∧
    (allBlank dir = true → base.withEnvironment (some dir) =
      .error (.configuration (.blankOverride Settings.folderVariable))) ∧
    ((∀ s, (i.withFolder dir).resolveSettings readFile = .ok s ↔
        base.withEnvironment (some dir) = .ok s) ↔ allBlank dir = false) := by
  have faultless := Invocation.baseSettings_faultless start
  have resolved := Invocation.resolveSettings_withFolder plain start filled
  refine ⟨Invocation.read_withFolder named plain filled, resolved,
    Settings.validate_eq_ok.2 (Settings.withFolder_faultless faultless filled),
    Settings.withEnvironment_filled faultless, Settings.withEnvironment_blank, ?_⟩
  constructor
  · intro agree
    have accepted := (agree _).1 resolved
    by_contra blank
    rw [Settings.withEnvironment_blank (by simpa using blank)] at accepted
    cases accepted
  · intro solid s
    rw [resolved, Settings.withEnvironment_filled faultless solid]
    simp only [Except.ok.injEq]

def siteFile (file : String) : Except ReadFailure String :=
  if file = "site.toml" then .ok "rule_fold = 'loose'" else .error .missing

def siteCheck : Invocation := ⟨some "site.toml", none, none, false, .check⟩

theorem siteCheck_baseSettings :
    siteCheck.baseSettings siteFile = .ok (Settings.standard.withFold .loose) := by
  have lines : Toml.read? "rule_fold = 'loose'" = some [("rule_fold", .text "loose")] := by
    decide +kernel
  have file : siteFile "site.toml" = .ok "rule_fold = 'loose'" := if_pos rfl
  have settings : settingsOfFile "site.toml" (siteFile "site.toml") =
      .ok (Settings.standard.withFold .loose) := by
    rw [file, settingsOfFile, Settings.ofToml, lines]
    rfl
  show Except.mapError _ (settingsOfFile "site.toml" (siteFile "site.toml")) = _
  rw [settings]
  rfl

/-- A folder is taken alike; two blanks are a folder for the run, and refused otherwise. -/
theorem folder_variable_agreement_site :
    Invocation.read ["-c", "site.toml", "check"] none = .ok siteCheck ∧ siteCheck.Plain ∧
    siteCheck.baseSettings siteFile = .ok (Settings.standard.withFold .loose) ∧
    (siteCheck.withFolder "/srv/rules").resolveSettings siteFile =
      .ok ⟨"/srv/rules", 30000, .loose, false, none⟩ ∧
    (Settings.standard.withFold .loose).withEnvironment (some "/srv/rules") =
      .ok ⟨"/srv/rules", 30000, .loose, false, none⟩ ∧
    (siteCheck.withFolder "  ").resolveSettings siteFile =
      .ok ⟨"  ", 30000, .loose, false, none⟩ ∧
    (Settings.standard.withFold .loose).withEnvironment (some "  ") =
      .error (.configuration (.blankOverride "RULES_FOLDER")) := by
  have named : Invocation.read ["-c", "site.toml", "check"] none = .ok siteCheck := by
    decide +kernel
  have plain : siteCheck.Plain := ⟨rfl, rfl, rfl⟩
  have filled : "/srv/rules" ≠ "" ∧ "  " ≠ "" := by decide
  obtain ⟨-, rules, -, same, -, -⟩ :=
    folder_variable_agreement named plain siteCheck_baseSettings filled.1
  obtain ⟨-, blanks, -, -, refused, -⟩ :=
    folder_variable_agreement named plain siteCheck_baseSettings filled.2
  exact ⟨named, plain, siteCheck_baseSettings, rules, same (by decide), blanks, refused (by decide)⟩

end CommandLine

end Gatekeeper
