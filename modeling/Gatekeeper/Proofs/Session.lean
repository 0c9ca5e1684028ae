import Gatekeeper.Proofs.Load.Reach
import Gatekeeper.Proofs.Service
import Gatekeeper.Service.Session

/-!
# Runs of a service in use

Whatever happens to a session, its service answers by the registry of the last attempt to load that
built one. A reload that fails leaves no trace, and a place once taken shows the same registry for
good: steps write to new places only.
-/

set_option autoImplicit false

namespace Gatekeeper
open Workflow

variable {settings : Settings} {host : Host} {b : Builtins} {disk : Disk} {fate : LoaderFate}
variable {registry : Registry} {e : Error}

def Builds (settings : Settings) (b : Builtins) (attempt : Disk × LoaderFate)
    (registry : Registry) : Prop :=
  ∃ available, attempt.2 = .inTime available ∧
    loadRegistry settings b available (attempt.1.folderAt? settings.folder) = .ok registry

inductive FailsToBuild (settings : Settings) (b : Builtins) : Disk × LoaderFate → Error → Prop
  | fault {disk : Disk} {available : Nat} {e : Error}
      (failed : loadRegistry settings b available (disk.folderAt? settings.folder) = .error e) :
      FailsToBuild settings b (disk, .inTime available) e
  | late (disk : Disk) :
      FailsToBuild settings b (disk, .late) (.loadTimeout settings.loadTimeout.toNat)
  | lost (disk : Disk) : FailsToBuild settings b (disk, .lost) (.load .loaderLost)
  | unstarted (disk : Disk) : FailsToBuild settings b (disk, .unstarted) .unreadable

theorem result_eq_ok :
    (loaderRun settings b disk fate).result settings.loadTimeout = .ok registry ↔
      Builds settings b (disk, fate) registry := by
  cases fate <;> simp [loaderRun, LoaderRun.result, Builds]

theorem result_eq_error :
    (loaderRun settings b disk fate).result settings.loadTimeout = .error e ↔
      FailsToBuild settings b (disk, fate) e := by
  constructor
  · intro failed
    cases fate with
    | inTime available => exact .fault failed
    | late =>
      cases failed
      exact .late disk
    | lost =>
      cases failed
      exact .lost disk
    | unstarted =>
      cases failed
      exact .unstarted disk
  · intro failed
    cases failed with
    | fault failed => exact failed
    | late | lost | unstarted => rfl

theorem FailsToBuild.not_builds {attempt : Disk × LoaderFate}
    (failed : FailsToBuild settings b attempt e) :
    ¬ ∃ registry, Builds settings b attempt registry := by
  rintro ⟨registry, built⟩
  have result := result_eq_ok.2 built
  rw [result_eq_error.2 failed] at result
  cases result

namespace Session

variable {s : Session} {history : List (Disk × LoaderFate)}

def attempts (disk : Disk) : List Action → List (Disk × LoaderFate)
  | [] => []
  | .change changed :: rest => attempts changed rest
  | .reload fate :: rest => (disk, fate) :: attempts disk rest
  | .snapshot :: rest | .check _ _ :: rest | .decide _ _ :: rest => attempts disk rest

/-! ## Single steps -/

theorem publish_service (s : Session) (registry : Registry) :
    (s.publish registry).service = { s.service with registry } := by
  simp [publish, service]

/-- A reload publishes what the loader builds, or does nothing. -/
theorem reload_cases (s : Session) (fate : LoaderFate) :
    (∃ registry, Builds s.settings s.builtins (s.disk, fate) registry ∧
      s.step (.reload fate) = (.reloaded (.ok registry.size), s.publish registry)) ∨
    ∃ e, FailsToBuild s.settings s.builtins (s.disk, fate) e ∧
      s.step (.reload fate) = (.reloaded (.error e), s) := by
  cases result : (loaderRun s.settings s.builtins s.disk fate).result s.settings.loadTimeout with
  | ok registry =>
    refine .inl ⟨registry, result_eq_ok.1 result, ?_⟩
    simp only [step, Service.reload, service, result]
  | error e =>
    refine .inr ⟨e, result_eq_error.1 result, ?_⟩
    simp only [step, Service.reload, service, result]

/-- No step writes to a place that is there. -/
theorem step_registries (s : Session) (a : Action) :
    s.registries <+: (s.step a).2.registries := by
  cases a with
  | reload fate =>
    rcases s.reload_cases fate with ⟨registry, -, stepped⟩ | ⟨e, -, stepped⟩
    · rw [stepped]
      exact List.prefix_append _ _
    · simp [stepped]
  | change | snapshot | check | decide => exact List.prefix_rfl

/-- What a list of actions attempts is what the first does and then the others, from where it has
led. -/
theorem attempts_cons (s : Session) (a : Action) (rest : List Action) :
    attempts s.disk (a :: rest) = attempts s.disk [a] ++ attempts (s.step a).2.disk rest := by
  cases a with
  | reload fate =>
    have sameDisk : (s.step (.reload fate)).2.disk = s.disk := by
      rcases s.reload_cases fate with ⟨registry, -, stepped⟩ | ⟨e, -, stepped⟩
      · rw [stepped, publish]
      · rw [stepped]
    rw [sameDisk]
    rfl
  | change | snapshot | check | decide => rfl

def Serves (settings : Settings) (host : Host) (b : Builtins) (history : List (Disk × LoaderFate))
    (s : Session) : Prop :=
  ∃ attempt registry, IsLast (fun t => ∃ r, Builds settings b t r) history attempt ∧
    Builds settings b attempt registry ∧ s.service = ⟨settings, host, b, registry⟩

theorem Serves.reload_cases (h : Serves settings host b history s) (fate : LoaderFate) :
    (∃ registry, Builds settings b (s.disk, fate) registry ∧
      s.step (.reload fate) = (.reloaded (.ok registry.size), s.publish registry)) ∨
    ∃ e, FailsToBuild settings b (s.disk, fate) e ∧
      s.step (.reload fate) = (.reloaded (.error e), s) := by
  obtain ⟨_, _, _, _, same⟩ := h
  have settingsEq : s.settings = settings := congrArg Service.settings same
  have builtinsEq : s.builtins = b := congrArg Service.builtins same
  have cases := s.reload_cases fate
  rwa [settingsEq, builtinsEq] at cases

theorem Serves.step (h : Serves settings host b history s) (a : Action) :
    Serves settings host b (history ++ attempts s.disk [a]) (s.step a).2 := by
  cases a with
  | reload fate =>
    have cases := h.reload_cases fate
    obtain ⟨attempt, registry, last, built, same⟩ := h
    rcases cases with ⟨fresh, success, stepped⟩ | ⟨e, failed, stepped⟩
    · refine ⟨(s.disk, fate), fresh, isLast_concat history ⟨fresh, success⟩, success, ?_⟩
      rw [stepped, publish_service, same]
    · refine ⟨attempt, registry, last.concat failed.not_builds, built, ?_⟩
      rw [stepped, same]
  | change | snapshot | check | decide =>
    rw [attempts, attempts, List.append_nil]
    exact h

/-! ## Runs -/

theorem after_registries (s : Session) (actions : List Action) :
    s.registries <+: (s.after actions).registries := by
  induction actions generalizing s with
  | nil => exact List.prefix_rfl
  | cons a rest ih => exact (step_registries s a).trans (ih (s.step a).2)

theorem Serves.after (h : Serves settings host b history s) (actions : List Action) :
    Serves settings host b (history ++ attempts s.disk actions) (s.after actions) := by
  induction actions generalizing s history with
  | nil => simpa [attempts, Session.after] using h
  | cons a rest ih =>
    rw [attempts_cons, ← List.append_assoc]
    exact ih (h.step a)

theorem start_serves {service : Service}
    (loaded : Service.load settings host b (loaderRun settings b disk fate) = .ok service) :
    Serves settings host b [(disk, fate)] (start disk service) := by
  simp only [Service.load, bind_eq_ok, pure_eq_ok] at loaded
  obtain ⟨_, -, registry, result, rfl⟩ := loaded
  have built := result_eq_ok.1 result
  exact ⟨(disk, fate), registry, isLast_concat [] ⟨registry, built⟩, built, rfl⟩

theorem answers (same : s.service = ⟨settings, host, b, registry⟩) (id : String)
    (input : DecisionInput) :
    (registry.get? id = none →
      s.step (.check id input) = (.checked (.error (.configuration (.unknownPolicy id))), s) ∧
      s.step (.decide id input) = (.decided false, s)) ∧
    ∀ w, registry.get? id = some w →
      s.step (.check id input) = (.checked (w.decide host b settings.fold input), s) ∧
      ∃ allowed, s.step (.decide id input) = (.decided allowed, s) ∧
        (allowed = true ↔ w.decide host b settings.fold input = .ok true) := by
  rw [step, step, same]
  constructor
  · intro absent
    rw [Service.check_unknown absent, Service.decide_unknown absent]
    exact ⟨rfl, rfl⟩
  · intro w found
    rw [Service.check_known found]
    exact ⟨rfl, _, rfl, Service.decide_known found⟩

/-- A place that is there shows the same registry after all later actions. -/
theorem shown_after {place : Nat} (shown : s.shown? place = some registry) (later : List Action) :
    (s.after later).shown? place = some registry := by
  obtain ⟨more, split⟩ := after_registries s later
  rw [shown?] at shown ⊢
  rw [← split, List.getElem?_append_left (List.getElem?_eq_some_iff.1 shown).1, shown]

/-- Reloads are atomic and snapshots isolated. After any actions the service has the registry of the
last load or reload that built one. A reload that fails leaves the session as it was, one that
succeeds publishes what it has built and answers how many ids lead to a workflow there. A check
answers what the workflow decides that the published registry has for the id, and that the policy is
unknown if it has none; a decision grants access if that workflow does and never else. A snapshot
shows for good what was published when it was taken. -/
theorem reload_atomic {service : Service}
    (loaded : Service.load settings host b (loaderRun settings b disk fate) = .ok service)
    (before : List Action) {now : Session} (reached : (start disk service).after before = now) :
    ∃ attempt registry,
      IsLast (fun t => ∃ r, Builds settings b t r) ((disk, fate) :: attempts disk before) attempt ∧
      Builds settings b attempt registry ∧ now.service = ⟨settings, host, b, registry⟩ ∧
      (∀ fate,
        (∃ e, FailsToBuild settings b (now.disk, fate) e ∧
          now.step (.reload fate) = (.reloaded (.error e), now)) ∨
        ∃ fresh, Builds settings b (now.disk, fate) fresh ∧
          (now.step (.reload fate)).1 = .reloaded (.ok fresh.size) ∧
          (∃ ids : List String, ids.Nodup ∧ ids.length = fresh.size ∧
            ∀ id, id ∈ ids ↔ ∃ w, fresh.get? id = some w) ∧
          (now.step (.reload fate)).2.service = ⟨settings, host, b, fresh⟩) ∧
      (∀ id input,
        (registry.get? id = none →
          now.step (.check id input) =
            (.checked (.error (.configuration (.unknownPolicy id))), now) ∧
          now.step (.decide id input) = (.decided false, now)) ∧
        ∀ w, registry.get? id = some w →
          now.step (.check id input) = (.checked (w.decide host b settings.fold input), now) ∧
          ∃ allowed, now.step (.decide id input) = (.decided allowed, now) ∧
            (allowed = true ↔ w.decide host b settings.fold input = .ok true)) ∧
      ∃ place, now.step .snapshot = (.taken place, now) ∧
        ∀ later, (now.after later).shown? place = some registry := by
  have serves : Serves settings host b ((disk, fate) :: attempts disk before) now := by
    rw [← reached]
    exact (start_serves loaded).after before
  have cases := serves.reload_cases
  obtain ⟨attempt, registry, last, built, same⟩ := serves
  refine ⟨attempt, registry, last, built, same, fun fate => ?_, fun id input => ?_, now.published,
    rfl, shown_after ?_⟩
  · rcases cases fate with ⟨fresh, success, stepped⟩ | ⟨e, failed, stepped⟩
    · refine .inr ⟨fresh, success, ?_⟩
      rw [stepped, publish_service, same]
      exact ⟨rfl, fresh.size_counts, rfl⟩
    · exact .inl ⟨e, failed, stepped⟩
  · exact answers same id input
  · have shown : now.registries[now.published] = registry := congrArg Service.registry same
    rw [← shown]
    exact List.getElem?_eq_getElem _

def lobbyText : String := "[7, \"lobby\", \"/lobby/*\"]"

def lobbyDocument : Document := ⟨7, "lobby", "/lobby/*", [], []⟩

def lobbyWorkflow : Workflow := ⟨7, "lobby", ⟨"/lobby/*"⟩, [], []⟩

def lobbyFile : Node := .file (some lobbyText.toUTF8)

def lobbyDisk : Disk := ⟨.folder [("policies", .folder [("lobby.json", lobbyFile)])], []⟩

def lobbyRegistry : Registry := ⟨NameMap.empty.insert "7" lobbyWorkflow⟩

def lobbyService : Service := ⟨.standard, .bare, .standard, lobbyRegistry⟩

theorem lobby_reads : ReadsAs ("policies/lobby.json", .ok lobbyFile)
    ⟨"policies/lobby.json", lobbyDocument⟩ := by
  have decoded : String.fromUTF8? lobbyText.toUTF8 = some lobbyText :=
    dif_pos lobbyText.isValidUTF8
  have text : lobbyFile.text = .ok lobbyText := by simp only [lobbyFile, Node.text, decoded]
  have decodes : (Json.read? lobbyText).bind Document.ofJson? = some lobbyDocument := by
    decide +kernel
  have read : Document.read lobbyText = .ok lobbyDocument := by rw [Document.read, decodes]
  exact ⟨rfl, lobbyText, text, read⟩

theorem lobby_compiles : compile lobbyDocument .standard = .ok lobbyWorkflow := by rfl

theorem lobby_loads : loadRegistry .standard .standard 8
    (lobbyDisk.folderAt? Settings.standard.folder) = .ok lobbyRegistry := by
  have found : lobbyDisk.folderAt? Settings.standard.folder =
      some [("lobby.json", .ok lobbyFile)] := by rfl
  have taken : policyFiles [("lobby.json", .ok lobbyFile)] = [("lobby.json", lobbyFile)] := by
    have isPolicy : isPolicyName "lobby.json" = true := by decide +kernel
    simp [policyFiles, policyFile?, lobbyFile, isPolicy]
  have read := readSources_eq_ok.2 (.cons lobby_reads .nil)
  have compiled : [⟨"policies/lobby.json", lobbyDocument⟩].mapM (PolicySource.compile .standard) =
      .ok [lobbyWorkflow] := mapM_eq_ok.2 (.cons (compile_source.2 lobby_compiles) .nil)
  rw [found, loadRegistry_eq_loadFiles, taken]
  exact (loadFiles_merge read compiled).trans rfl

theorem lobby_service : Service.load .standard .bare .standard
    (loaderRun .standard .standard lobbyDisk (.inTime 8)) = .ok lobbyService := by
  rw [loaderRun, lobby_loads]
  rfl

def ruined : Session :=
  (start lobbyDisk lobbyService).after [.change ⟨.folder [], []⟩, .reload (.inTime 8)]

theorem reload_atomic_ruined : ruined.service = lobbyService ∧
    ruined.step (.reload .late) = (.reloaded (.error (.loadTimeout 30000)), ruined) ∧
    ruined.step (.check "7" guest) = (.checked (.ok true), ruined) ∧
    ruined.step (.decide "8" guest) = (.decided false, ruined) ∧
    ∃ place, ruined.step .snapshot = (.taken place, ruined) ∧
      (ruined.after [.change lobbyDisk, .reload (.inTime 1)]).shown? place =
        some lobbyRegistry := by
  obtain ⟨attempt, registry, last, built, service, reloads, answers, place, taken, shown⟩ :=
    reload_atomic lobby_service _ (rfl : _ = ruined)
  have missing : FailsToBuild .standard .standard (⟨.folder [], []⟩, .inTime 8)
      (.load (.missingFolder "policies")) := .fault rfl
  have first : attempt = (lobbyDisk, .inTime 8) := by
    rcases List.mem_pair.1 last.mem.1 with here | here
    · exact here
    · exact absurd (here ▸ last.mem.2) missing.not_builds
  have same : registry = lobbyRegistry := by
    rw [first] at built
    obtain ⟨available, inTime, loads⟩ := built
    cases inTime
    rw [lobby_loads] at loads
    cases loads
    rfl
  have late : ruined.step (.reload .late) = (.reloaded (.error (.loadTimeout 30000)), ruined) := by
    rcases reloads .late with ⟨e, failed, answer⟩ | ⟨fresh, ⟨available, inTime, -⟩, -⟩
    · cases failed
      exact answer
    · cases inTime
  rw [same] at service answers shown
  have elsewhere : lobbyWorkflow.appliesTo guest.path = false := by rfl
  have checked := ((answers "7" guest).2 lobbyWorkflow rfl).1
  rw [decide_uncovered elsewhere] at checked
  have decided := ((answers "8" guest).1 rfl).2
  exact ⟨service, late, checked, decided, place, taken, shown _⟩

end Session

end Gatekeeper
