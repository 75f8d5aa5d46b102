import MultiAgent.Lib.Decimal
import MultiAgent.Lib.Json
import MultiAgent.Lib.Machine
import MultiAgent.Lib.Split

/-!
# The replay of episodes

`EpisodeReplayEngine` of `docs/evaluation/episode_replay.py`. An episode is stored as JSON, in Redis
and in a file. A call waits for Redis, so that other calls run between its reading and its writing
and between its two writings. Redis and the file system may fail, and drop what they have.

What a step becomes when it is replayed again and again depends on the strongest of the modes only
(`replayStep_replayStep`). So whatever an engine has stored is one of its recordings, or what a
single replay makes of it (`genuine_step`).
-/

namespace MultiAgent

namespace EpisodeReplay

open Json (Key Value)

/-- A dictionary of the source. -/
abbrev Data :=
  List (Key × Value)

/-- `data.get(key, default)`. -/
def get (data : Data) (key : String) (default : Value) : Value :=
  (data.lookup (.str key)).getD default

/-- `ReplayStatus`. -/
inductive ReplayStatus
  | pending
  | running
  | completed
  | failed
  | cancelled
  deriving DecidableEq

/-- `ReplayMode`. -/
inductive ReplayMode
  | exact
  | similar
  | adaptive
  deriving DecidableEq

/-- `EpisodeConfig`. -/
structure EpisodeConfig where
  episodeId : String
  modelVersion : String
  promptVersion : String
  toolVersions : Data
  routerConfig : Data
  tenantConfig : Data
  metadata : Data := []

/-- `EpisodeStep`. -/
structure EpisodeStep where
  stepId : String
  stepType : String
  inputData : Data
  outputData : Data
  success : Bool
  errorMessage : Option String := none
  metadata : Data := []

/-- `Episode`. -/
structure Episode where
  episodeId : String
  tenantId : String
  sessionId : String
  config : EpisodeConfig
  steps : List EpisodeStep := []
  status : ReplayStatus := .pending
  successCount : ℕ := 0
  failureCount : ℕ := 0
  metadata : Data := []

/-! ## The replay of a step -/

/-- `_adaptive_input_processing`. -/
def adaptiveInputProcessing (step : EpisodeStep) : Data :=
  [(.str "processed_input", get step.inputData "input_text" (.str "")),
    (.str "intent", .str "adaptive_intent"),
    (.str "confidence", .float (9 / 10)),
    (.str "metadata", .dict [(.str "adaptive", .bool true)])]

/-- `_adaptive_router_decision`. -/
def adaptiveRouterDecision : Data :=
  [(.str "selected_tier", .str "SLM_B"),
    (.str "confidence", .float (17 / 20)),
    (.str "reasoning", .str "Adaptive routing based on current best practices"),
    (.str "features", .dict [(.str "adaptive", .bool true)])]

/-- `_adaptive_tool_call`. -/
def adaptiveToolCall (step : EpisodeStep) : Data :=
  [(.str "tool_name", get step.outputData "tool_name" (.str "")),
    (.str "result", .dict [(.str "adaptive", .bool true)]),
    (.str "success", .bool true),
    (.str "duration_ms", .int 100)]

/-- `_adaptive_response_generation`. -/
def adaptiveResponseGeneration : Data :=
  [(.str "response_text", .str "Adaptive response based on current best practices"),
    (.str "metadata", .dict [(.str "adaptive", .bool true)]),
    (.str "tokens_used", .int 50)]

/-- `_replay_input_step`. -/
def replayInputStep (step : EpisodeStep) : ReplayMode → Data
  | .exact => step.outputData
  | .similar =>
    [(.str "processed_input", get step.inputData "input_text" (.str "")),
      (.str "intent", get step.outputData "intent" (.str "unknown")),
      (.str "confidence", get step.outputData "confidence" (.float 0)),
      (.str "metadata", get step.outputData "metadata" (.dict []))]
  | .adaptive => adaptiveInputProcessing step

/-- `_replay_router_step`. -/
def replayRouterStep (step : EpisodeStep) : ReplayMode → Data
  | .exact => step.outputData
  | .similar =>
    [(.str "selected_tier", get step.outputData "selected_tier" (.str "SLM_A")),
      (.str "confidence", get step.outputData "confidence" (.float 0)),
      (.str "reasoning", get step.outputData "reasoning" (.str "")),
      (.str "features", get step.outputData "features" (.dict []))]
  | .adaptive => adaptiveRouterDecision

/-- `_replay_tool_step`. -/
def replayToolStep (step : EpisodeStep) : ReplayMode → Data
  | .exact => step.outputData
  | .similar =>
    [(.str "tool_name", get step.outputData "tool_name" (.str "")),
      (.str "result", get step.outputData "result" (.dict [])),
      (.str "success", get step.outputData "success" (.bool false)),
      (.str "duration_ms", get step.outputData "duration_ms" (.int 0))]
  | .adaptive => adaptiveToolCall step

/-- `_replay_response_step`. -/
def replayResponseStep (step : EpisodeStep) : ReplayMode → Data
  | .exact => step.outputData
  | .similar =>
    [(.str "response_text", get step.outputData "response_text" (.str "")),
      (.str "metadata", get step.outputData "metadata" (.dict [])),
      (.str "tokens_used", get step.outputData "tokens_used" (.int 0))]
  | .adaptive => adaptiveResponseGeneration

/-- The output of a step that is replayed, if it has one of the four types. -/
def replayOutput (step : EpisodeStep) (mode : ReplayMode) : Option Data :=
  if step.stepType = "input" then some (replayInputStep step mode)
  else if step.stepType = "router_decision" then some (replayRouterStep step mode)
  else if step.stepType = "tool_call" then some (replayToolStep step mode)
  else if step.stepType = "response" then some (replayResponseStep step mode)
  else none

/-- `_replay_step`. -/
def replayStep (mode : ReplayMode) (step : EpisodeStep) : EpisodeStep :=
  match replayOutput step mode with
  | some output =>
    { stepId := "replay_" ++ step.stepId
      stepType := step.stepType
      inputData := step.inputData
      outputData := output
      success := true }
  | none =>
    { stepId := "replay_" ++ step.stepId
      stepType := step.stepType
      inputData := step.inputData
      outputData := []
      success := false
      errorMessage := some ("Unknown step type: " ++ step.stepType) }

/-- The mode of a replay that does what replays in two modes do. -/
def ReplayMode.join : ReplayMode → ReplayMode → ReplayMode
  | .exact, mode => mode
  | .similar, .exact => .similar
  | .similar, mode => mode
  | .adaptive, _ => .adaptive

section ReplayedStep

variable {step step' : EpisodeStep} {mode : ReplayMode} {output : Data}

theorem replayStep_of_some (h : replayOutput step mode = some output) :
    replayStep mode step = { step with
      stepId := "replay_" ++ step.stepId
      outputData := output
      success := true
      errorMessage := none
      metadata := [] } := by
  simp only [replayStep, h]

theorem replayStep_of_none (h : replayOutput step mode = none) :
    replayStep mode step = { step with
      stepId := "replay_" ++ step.stepId
      outputData := []
      success := false
      errorMessage := some ("Unknown step type: " ++ step.stepType)
      metadata := [] } := by
  simp only [replayStep, h]

/-- The output of a step that was replayed already. -/
theorem replayOutput_replayStep (h : replayOutput step mode = some output) (mode' : ReplayMode) :
    replayOutput (replayStep mode step) mode' = replayOutput step (mode.join mode') := by
  rw [replayStep_of_some h]
  unfold replayOutput at h ⊢
  dsimp only
  split_ifs at h ⊢ with hinput hrouter htool hresponse
  · cases h
    cases mode <;> cases mode' <;> rfl
  · cases h
    cases mode <;> cases mode' <;> rfl
  · cases h
    cases mode <;> cases mode' <;> rfl
  · cases h
    cases mode <;> cases mode' <;> rfl

/-- Whether a step has an output is a matter of its type. -/
theorem replayOutput_none (h : replayOutput step mode = none)
    (htype : step'.stepType = step.stepType) (mode' : ReplayMode) :
    replayOutput step' mode' = none := by
  unfold replayOutput at h ⊢
  rw [htype]
  split_ifs at h ⊢
  rfl

/-- What a step is, whatever its id is. -/
def EpisodeStep.body (step : EpisodeStep) : EpisodeStep :=
  { step with stepId := "" }

theorem body_replayStep (mode : ReplayMode) (step : EpisodeStep) :
    (replayStep mode step).body = (replayStep mode step.body).body := by
  have houtput : replayOutput step.body mode = replayOutput step mode := rfl
  unfold replayStep
  rw [houtput]
  cases replayOutput step mode <;> rfl

/-- A step that is replayed twice is the step replayed once, in the stronger mode. -/
theorem replayStep_replayStep (mode mode' : ReplayMode) (step : EpisodeStep) :
    (replayStep mode' (replayStep mode step)).body = (replayStep (mode.join mode') step).body := by
  cases h : replayOutput step mode with
  | some output =>
    have hagain := replayOutput_replayStep h mode'
    cases hjoin : replayOutput step (mode.join mode') with
    | some output' =>
      rw [replayStep_of_some (hagain.trans hjoin), replayStep_of_some hjoin, replayStep_of_some h]
      rfl
    | none =>
      rw [replayStep_of_none (hagain.trans hjoin), replayStep_of_none hjoin, replayStep_of_some h]
      rfl
  | none =>
    have hagain : replayOutput (replayStep mode step) mode' = none :=
      replayOutput_none h (by rw [replayStep_of_none h]) mode'
    rw [replayStep_of_none hagain, replayStep_of_none h,
      replayStep_of_none (replayOutput_none h rfl (mode.join mode'))]
    rfl

end ReplayedStep

/-! ## The replay of an episode -/

/-- The episode of `record_episode`. -/
def recordedEpisode (episodeId tenantId sessionId : String) (config : EpisodeConfig)
    (steps : List EpisodeStep) : Episode :=
  let successCount := steps.countP EpisodeStep.success
  { episodeId, tenantId, sessionId, config, steps
    status := .completed
    successCount
    failureCount := steps.length - successCount }

/-- The id of a replay, where `now` is `int(time.time())`. -/
def replayId (episodeId : String) (now : ℤ) : String :=
  "replay_" ++ episodeId ++ "_" ++ toString now

/-- One round of the loop of `replay_episode`. -/
def appendStep (mode : ReplayMode) (replay : Episode) (step : EpisodeStep) : Episode :=
  let replayedStep := replayStep mode step
  { replay with
    steps := replay.steps ++ [replayedStep]
    successCount := if replayedStep.success then replay.successCount + 1 else replay.successCount
    failureCount :=
      if replayedStep.success then replay.failureCount else replay.failureCount + 1 }

/-- `target_tenant_id or episode.tenant_id` -/
def targetTenant (targetTenantId : Option String) (tenantId : String) : String :=
  match targetTenantId with
  | some target => if target = "" then tenantId else target
  | none => tenantId

/-- The episode of `replay_episode`, before it is stored. -/
def replayedEpisode (episode : Episode) (mode : ReplayMode) (targetTenantId : Option String)
    (now : ℤ) : Episode :=
  let replay : Episode :=
    { episodeId := replayId episode.episodeId now
      tenantId := targetTenant targetTenantId episode.tenantId
      sessionId := "replay_" ++ episode.sessionId
      config := episode.config
      status := .running }
  { episode.steps.foldl (appendStep mode) replay with status := .completed }

/-! ## The stored episodes -/

/-- `json.loads` of what `json.dumps` makes of a dictionary. -/
def reloadData (data : Data) : Option Data :=
  (Value.reloadItems data).map Value.ofPairs

/-- The configuration that is loaded after it was stored. -/
def EpisodeConfig.reload (config : EpisodeConfig) : Option EpisodeConfig := do
  let toolVersions ← reloadData config.toolVersions
  let routerConfig ← reloadData config.routerConfig
  let tenantConfig ← reloadData config.tenantConfig
  let metadata ← reloadData config.metadata
  return { config with toolVersions, routerConfig, tenantConfig, metadata }

/-- The step that is loaded after it was stored. -/
def EpisodeStep.reload (step : EpisodeStep) : Option EpisodeStep := do
  let inputData ← reloadData step.inputData
  let outputData ← reloadData step.outputData
  let metadata ← reloadData step.metadata
  return { step with inputData, outputData, metadata }

/-- The steps that are loaded after they were stored. -/
def reloadSteps : List EpisodeStep → Option (List EpisodeStep)
  | [] => some []
  | step :: steps => do
    let step ← step.reload
    let steps ← reloadSteps steps
    return step :: steps

/-- The episode that `_load_episode` makes of what `_store_episode` writes, where `none` stands for
an exception of `json.dumps`. -/
def Episode.reload (episode : Episode) : Option Episode := do
  let config ← episode.config.reload
  let steps ← reloadSteps episode.steps
  let metadata ← reloadData episode.metadata
  return { episode with config, steps, metadata }

/-- Where a call of `_store_episode` is. -/
inductive Stage
  | redis
  | file
  | returned
  deriving DecidableEq

/-- A call of `record_episode` or `replay_episode` that has an episode to store. -/
structure Task where
  episode : Episode
  isReplay : Bool
  stage : Stage := .redis
  failed : Bool := false

/-- The engine, with what Redis and the files have under the id of an episode. -/
structure EpisodeReplayEngine where
  redis : Dict String Episode := .empty
  files : Dict String Episode := .empty
  tasks : List Task := []

/-- Calls begin, the task number `k` writes to Redis or its file, which may fail, and what was
stored is dropped, with its time or by `cleanup_old_episodes`. -/
inductive Event
  | recordEpisode (episodeId tenantId sessionId : String) (config : EpisodeConfig)
      (steps : List EpisodeStep)
  | replayEpisode (episodeId : String) (mode : ReplayMode) (targetTenantId : Option String)
      (now : ℤ)
  | setex (k : ℕ) (ok : Bool)
  | write (k : ℕ) (ok : Bool)
  | expire (episodeId : String)
  | unlink (episodeId : String)

/-- `_load_episode`. -/
def EpisodeReplayEngine.loadEpisode (s : EpisodeReplayEngine) (episodeId : String) :
    Option Episode :=
  (s.redis.get? episodeId).or (s.files.get? episodeId)

/-- An exception of `_store_episode`. A replay is stored once more, as failed. -/
def Task.raise (task : Task) : Task :=
  if task.isReplay ∧ ¬task.failed then
    { task with
      episode := { task.episode with status := .failed }
      stage := .redis
      failed := true }
  else { task with stage := .returned }

/-- One event. A replay of an episode that is not found raises. -/
def EpisodeReplayEngine.step (s : EpisodeReplayEngine) : Event → Option EpisodeReplayEngine
  | .recordEpisode episodeId tenantId sessionId config steps =>
    let episode := recordedEpisode episodeId tenantId sessionId config steps
    some { s with tasks := s.tasks ++ [{ episode, isReplay := false }] }
  | .replayEpisode episodeId mode targetTenantId now =>
    match s.loadEpisode episodeId with
    | some episode =>
      let episode := replayedEpisode episode mode targetTenantId now
      some { s with tasks := s.tasks ++ [{ episode, isReplay := true }] }
    | none => some s
  | .setex k ok =>
    match s.tasks[k]? with
    | some task =>
      if task.stage = .redis then
        match task.episode.reload, ok with
        | some episode, true =>
          some { s with
            redis := s.redis.set episode.episodeId episode
            tasks := s.tasks.set k { task with stage := .file } }
        | _, _ => some { s with tasks := s.tasks.set k task.raise }
      else none
    | none => none
  | .write k ok =>
    match s.tasks[k]? with
    | some task =>
      if task.stage = .file then
        match task.episode.reload, ok with
        | some episode, true =>
          some { s with
            files := s.files.set episode.episodeId episode
            tasks := s.tasks.set k { task with stage := .returned } }
        | _, _ =>
          -- what is left of the file cannot be read
          some { s with
            files := s.files.erase task.episode.episodeId
            tasks := s.tasks.set k task.raise }
      else none
    | none => none
  | .expire episodeId => some { s with redis := s.redis.erase episodeId }
  | .unlink episodeId => some { s with files := s.files.erase episodeId }

/-- The engine. -/
def engineMachine : Machine EpisodeReplayEngine Event where
  init := {}
  step := EpisodeReplayEngine.step

/-! ## What JSON keeps -/

/-- The dictionary is one that JSON has. -/
def IsJson (data : Data) : Prop :=
  (Value.dict data).isJson = true

instance (data : Data) : Decidable (IsJson data) :=
  inferInstanceAs (Decidable (_ = _))

variable {data data' : Data} {config config' : EpisodeConfig} {step step' : EpisodeStep}
  {steps steps' : List EpisodeStep} {episode episode' : Episode}

theorem reload_dict (data : Data) : (Value.dict data).reload = (reloadData data).map .dict := by
  rw [Value.reload, reloadData, Option.map_map]
  rfl

theorem reloadData_of_isJson (h : IsJson data) : reloadData data = some data := by
  have hdict := Value.reload_of_isJson h
  rw [reload_dict, Option.map_eq_some_iff] at hdict
  obtain ⟨data', hdata', heq⟩ := hdict
  rw [hdata', Value.dict.inj heq]

theorem isJson_of_reloadData (h : reloadData data = some data') : IsJson data' := by
  refine Value.isJson_reload (v := .dict data) ?_
  rw [reload_dict, h]
  rfl

theorem isJson_get (h : IsJson data) (key : String) {default : Value}
    (hdefault : default.isJson = true) : (get data key default).isJson = true := by
  have hitems : Value.isJsonItems data = true := by
    unfold IsJson at h
    rw [Value.isJson, Bool.and_eq_true] at h
    exact h.1
  unfold get
  cases hlookup : data.lookup (.str key) with
  | none => exact hdefault
  | some v =>
    obtain ⟨_, _, rfl, -⟩ := List.lookup_eq_some_iff.mp hlookup
    exact (Value.isJsonItems_iff.mp hitems _ (List.mem_append_right _ List.mem_cons_self)).2

/-- Every dictionary of the configuration is. -/
structure EpisodeConfig.IsJson (config : EpisodeConfig) : Prop where
  toolVersions : EpisodeReplay.IsJson config.toolVersions
  routerConfig : EpisodeReplay.IsJson config.routerConfig
  tenantConfig : EpisodeReplay.IsJson config.tenantConfig
  metadata : EpisodeReplay.IsJson config.metadata

/-- Every dictionary of the step is. -/
structure EpisodeStep.IsJson (step : EpisodeStep) : Prop where
  inputData : EpisodeReplay.IsJson step.inputData
  outputData : EpisodeReplay.IsJson step.outputData
  metadata : EpisodeReplay.IsJson step.metadata

/-- Every dictionary of the episode is. -/
structure Episode.IsJson (episode : Episode) : Prop where
  config : episode.config.IsJson
  steps : ∀ step ∈ episode.steps, step.IsJson
  metadata : EpisodeReplay.IsJson episode.metadata

theorem EpisodeConfig.reload_of_isJson (h : config.IsJson) : config.reload = some config := by
  simp only [EpisodeConfig.reload, reloadData_of_isJson h.toolVersions,
    reloadData_of_isJson h.routerConfig, reloadData_of_isJson h.tenantConfig,
    reloadData_of_isJson h.metadata]
  rfl

theorem EpisodeConfig.isJson_of_reload (h : config.reload = some config') : config'.IsJson := by
  simp only [EpisodeConfig.reload, Option.bind_eq_bind, Option.bind_eq_some_iff] at h
  obtain ⟨_, htool, _, hrouter, _, htenant, _, hmetadata, heq⟩ := h
  obtain rfl := Option.some.inj heq
  exact ⟨isJson_of_reloadData htool, isJson_of_reloadData hrouter, isJson_of_reloadData htenant,
    isJson_of_reloadData hmetadata⟩

theorem EpisodeStep.reload_of_isJson (h : step.IsJson) : step.reload = some step := by
  simp only [EpisodeStep.reload, reloadData_of_isJson h.inputData,
    reloadData_of_isJson h.outputData, reloadData_of_isJson h.metadata]
  rfl

theorem EpisodeStep.isJson_of_reload (h : step.reload = some step') : step'.IsJson := by
  simp only [EpisodeStep.reload, Option.bind_eq_bind, Option.bind_eq_some_iff] at h
  obtain ⟨_, hinput, _, houtput, _, hmetadata, heq⟩ := h
  obtain rfl := Option.some.inj heq
  exact ⟨isJson_of_reloadData hinput, isJson_of_reloadData houtput,
    isJson_of_reloadData hmetadata⟩

theorem reloadSteps_of_isJson (h : ∀ step ∈ steps, step.IsJson) :
    reloadSteps steps = some steps := by
  induction steps with
  | nil => rfl
  | cons step steps ih =>
    obtain ⟨hstep, hsteps⟩ := List.forall_mem_cons.mp h
    rw [reloadSteps, EpisodeStep.reload_of_isJson hstep, ih hsteps]
    rfl

theorem isJson_of_reloadSteps (h : reloadSteps steps = some steps') :
    ∀ step ∈ steps', step.IsJson := by
  induction steps generalizing steps' with
  | nil =>
    obtain rfl := Option.some.inj h
    exact fun step hstep => absurd hstep List.not_mem_nil
  | cons step steps ih =>
    simp only [reloadSteps, Option.bind_eq_bind, Option.bind_eq_some_iff] at h
    obtain ⟨_, hstep, _, hsteps, heq⟩ := h
    obtain rfl := Option.some.inj heq
    exact List.forall_mem_cons.mpr ⟨EpisodeStep.isJson_of_reload hstep, ih hsteps⟩

/-- What an episode becomes when it is stored and loaded : its steps are reloaded, and the rest that
is read of it is as it was. -/
theorem Episode.reload_eq_some (h : episode.reload = some episode') :
    episode'.IsJson ∧ reloadSteps episode.steps = some episode'.steps ∧
      episode'.episodeId = episode.episodeId ∧ episode'.successCount = episode.successCount ∧
      episode'.failureCount = episode.failureCount := by
  simp only [Episode.reload, Option.bind_eq_bind, Option.bind_eq_some_iff] at h
  obtain ⟨_, hconfig, _, hsteps, _, hmetadata, heq⟩ := h
  obtain rfl := Option.some.inj heq
  exact ⟨⟨EpisodeConfig.isJson_of_reload hconfig, isJson_of_reloadSteps hsteps,
    isJson_of_reloadData hmetadata⟩, hsteps, rfl, rfl, rfl⟩

theorem Episode.reload_of_isJson (h : episode.IsJson) : episode.reload = some episode := by
  simp only [Episode.reload, EpisodeConfig.reload_of_isJson h.config,
    reloadSteps_of_isJson h.steps, reloadData_of_isJson h.metadata]
  rfl

theorem isJson_nil : IsJson [] := by
  decide

theorem isJson_cons {key : String} {value : Value} (hvalue : value.isJson = true)
    (hdata : IsJson data) (hkey : Key.str key ∉ data.map Prod.fst) :
    IsJson ((.str key, value) :: data) := by
  unfold IsJson at hdata ⊢
  rw [Value.isJson, Bool.and_eq_true, decide_eq_true_iff] at hdata ⊢
  rw [Value.isJsonItems, hvalue, hdata.1, List.map_cons, List.nodup_cons]
  exact ⟨rfl, hkey, hdata.2⟩

/-- The output of a replay is made of values of the step and of values that JSON has. -/
theorem isJson_of_replayOutput {mode : ReplayMode} {output : Data} (hstep : step.IsJson)
    (h : replayOutput step mode = some output) : IsJson output := by
  have hinput : ∀ key default, default.isJson = true →
      (get step.inputData key default).isJson = true := fun key _ => isJson_get hstep.inputData key
  have houtput : ∀ key default, default.isJson = true →
      (get step.outputData key default).isJson = true := fun key _ =>
    isJson_get hstep.outputData key
  unfold replayOutput at h
  split_ifs at h
  · obtain rfl := Option.some.inj h
    cases mode with
    | exact => exact hstep.outputData
    | similar =>
      refine isJson_cons (hinput _ _ rfl) (isJson_cons (houtput _ _ rfl)
        (isJson_cons (houtput _ _ rfl) (isJson_cons (houtput _ _ rfl) isJson_nil ?_) ?_) ?_) ?_
      all_goals simp
    | adaptive =>
      refine isJson_cons (hinput _ _ rfl) ?_ (by simp)
      decide +kernel
  · obtain rfl := Option.some.inj h
    cases mode with
    | exact => exact hstep.outputData
    | similar =>
      refine isJson_cons (houtput _ _ rfl) (isJson_cons (houtput _ _ rfl)
        (isJson_cons (houtput _ _ rfl) (isJson_cons (houtput _ _ rfl) isJson_nil ?_) ?_) ?_) ?_
      all_goals simp
    | adaptive =>
      change IsJson adaptiveRouterDecision
      decide +kernel
  · obtain rfl := Option.some.inj h
    cases mode with
    | exact => exact hstep.outputData
    | similar =>
      refine isJson_cons (houtput _ _ rfl) (isJson_cons (houtput _ _ rfl)
        (isJson_cons (houtput _ _ rfl) (isJson_cons (houtput _ _ rfl) isJson_nil ?_) ?_) ?_) ?_
      all_goals simp
    | adaptive =>
      refine isJson_cons (houtput _ _ rfl) ?_ (by simp)
      decide +kernel
  · obtain rfl := Option.some.inj h
    cases mode with
    | exact => exact hstep.outputData
    | similar =>
      refine isJson_cons (houtput _ _ rfl) (isJson_cons (houtput _ _ rfl)
        (isJson_cons (houtput _ _ rfl) isJson_nil ?_) ?_) ?_
      all_goals simp
    | adaptive =>
      change IsJson adaptiveResponseGeneration
      decide +kernel

theorem EpisodeStep.IsJson.replayStep (h : step.IsJson) (mode : ReplayMode) :
    (replayStep mode step).IsJson := by
  cases houtput : replayOutput step mode with
  | some output =>
    rw [replayStep_of_some houtput]
    exact ⟨h.inputData, isJson_of_replayOutput h houtput, isJson_nil⟩
  | none =>
    rw [replayStep_of_none houtput]
    exact ⟨h.inputData, isJson_nil, isJson_nil⟩

/-! ## The steps of a replay -/

theorem foldl_appendStep (mode : ReplayMode) (steps : List EpisodeStep) (replay : Episode) :
    steps.foldl (appendStep mode) replay = { replay with
      steps := replay.steps ++ steps.map (replayStep mode)
      successCount := replay.successCount +
        (steps.map (replayStep mode)).countP EpisodeStep.success
      failureCount := replay.failureCount +
        (steps.map (replayStep mode)).countP fun step => !step.success } := by
  induction steps generalizing replay with
  | nil => simp
  | cons step steps ih =>
    rw [List.foldl_cons, ih]
    cases h : (EpisodeReplay.replayStep mode step).success <;>
      simp [appendStep, h, Nat.add_assoc, Nat.add_comm]

theorem replayedEpisode_eq (episode : Episode) (mode : ReplayMode)
    (targetTenantId : Option String) (now : ℤ) :
    replayedEpisode episode mode targetTenantId now =
      { episodeId := replayId episode.episodeId now
        tenantId := targetTenant targetTenantId episode.tenantId
        sessionId := "replay_" ++ episode.sessionId
        config := episode.config
        steps := episode.steps.map (replayStep mode)
        status := .completed
        successCount := (episode.steps.map (replayStep mode)).countP EpisodeStep.success
        failureCount :=
          (episode.steps.map (replayStep mode)).countP fun step => !step.success } := by
  simp only [replayedEpisode, foldl_appendStep, List.nil_append, Nat.zero_add]

/-- The counters of an episode count its steps. -/
structure Counted (episode : Episode) : Prop where
  successCount : episode.successCount = episode.steps.countP EpisodeStep.success
  failureCount : episode.failureCount = episode.steps.countP fun step => !step.success

/-- The steps are those of a recording, or what a replay in one mode makes of them. -/
def Replays (original steps : List EpisodeStep) : Prop :=
  steps = original ∨ ∃ mode,
    steps.map EpisodeStep.body = original.map fun step => (replayStep mode step).body

theorem Replays.replay {original : List EpisodeStep} (h : Replays original steps)
    (mode : ReplayMode) : Replays original (steps.map (replayStep mode)) := by
  rcases h with rfl | ⟨mode', h⟩
  · exact Or.inr ⟨mode, List.map_map⟩
  · refine Or.inr ⟨mode'.join mode, ?_⟩
    have hbody := congrArg (List.map fun body => (replayStep mode body).body) h
    rw [List.map_map, List.map_map] at hbody
    calc (steps.map (replayStep mode)).map EpisodeStep.body
        = steps.map ((fun body => (replayStep mode body).body) ∘ EpisodeStep.body) := by
          rw [List.map_map]
          exact List.map_congr_left fun step _ => body_replayStep mode step
      _ = original.map fun step => (replayStep mode (replayStep mode' step)).body := by
          rw [hbody]
          exact List.map_congr_left fun step _ => (body_replayStep mode _).symm
      _ = original.map fun step => (replayStep (mode'.join mode) step).body :=
          List.map_congr_left fun step _ => replayStep_replayStep mode' mode step

/-! ## What is stored -/

/-- The episodes that are recorded, with their steps. -/
def recordings (es : List Event) : List (String × List EpisodeStep) :=
  es.filterMap fun
    | .recordEpisode episodeId _ _ _ steps => some (episodeId, steps)
    | _ => none

/-- An id of a recording, of its replays, and of their replays. -/
inductive ReplayOf (root : String) : String → Prop
  | recording : ReplayOf root root
  | replay {episodeId : String} (now : ℤ) :
      ReplayOf root episodeId → ReplayOf root (replayId episodeId now)

/-- An episode that is a recording, as it is loaded, or what a replay in one mode makes of it. Its
id tells which one, and its counters count its steps. -/
structure Genuine (es : List Event) (episode : Episode) : Prop where
  counted : Counted episode
  origin : ∃ root steps original, (root, steps) ∈ recordings es ∧
    reloadSteps steps = some original ∧ ReplayOf root episode.episodeId ∧
    Replays original episode.steps

variable {es : List Event} {e : Event} {s t : EpisodeReplayEngine} {task : Task} {id : String}

theorem Genuine.snoc (h : Genuine es episode) (e : Event) : Genuine (es ++ [e]) episode where
  counted := h.counted
  origin := by
    obtain ⟨root, steps, original, hmem, horiginal⟩ := h.origin
    refine ⟨root, steps, original, ?_, horiginal⟩
    rw [recordings, List.filterMap_append]
    exact List.mem_append_left _ hmem

/-- A replay of an episode that was loaded. -/
theorem Genuine.replayedEpisode (h : Genuine es episode) (mode : ReplayMode)
    (targetTenantId : Option String) (now : ℤ) :
    Genuine es (replayedEpisode episode mode targetTenantId now) := by
  obtain ⟨root, steps, original, hmem, hreload, hid, hreplays⟩ := h.origin
  rw [replayedEpisode_eq]
  exact ⟨⟨rfl, rfl⟩, root, steps, original, hmem, hreload, hid.replay now, hreplays.replay mode⟩

theorem Episode.IsJson.replayedEpisode (h : episode.IsJson) (mode : ReplayMode)
    (targetTenantId : Option String) (now : ℤ) :
    (replayedEpisode episode mode targetTenantId now).IsJson := by
  rw [replayedEpisode_eq]
  refine ⟨h.config, fun step hstep => ?_, isJson_nil⟩
  obtain ⟨step', hstep', rfl⟩ := List.mem_map.mp hstep
  exact (h.steps step' hstep').replayStep mode

theorem map_success_of_reloadSteps (h : reloadSteps steps = some steps') :
    steps'.map EpisodeStep.success = steps.map EpisodeStep.success := by
  induction steps generalizing steps' with
  | nil =>
    obtain rfl := Option.some.inj h
    rfl
  | cons step steps ih =>
    simp only [reloadSteps, Option.bind_eq_bind, Option.bind_eq_some_iff] at h
    obtain ⟨_, hstep, _, hsteps, heq⟩ := h
    obtain rfl := Option.some.inj heq
    simp only [EpisodeStep.reload, Option.bind_eq_bind, Option.bind_eq_some_iff] at hstep
    obtain ⟨_, -, _, -, _, -, heq⟩ := hstep
    obtain rfl := Option.some.inj heq
    rw [List.map_cons, List.map_cons, ih hsteps]

theorem Counted.reload (h : Counted episode) (hreload : episode.reload = some episode') :
    Counted episode' := by
  obtain ⟨-, hsteps, -, hsuccess, hfailure⟩ := Episode.reload_eq_some hreload
  have hmap := map_success_of_reloadSteps hsteps
  have hcount : ∀ p : Bool → Bool, episode'.steps.countP (p ∘ EpisodeStep.success) =
      episode.steps.countP (p ∘ EpisodeStep.success) := by
    intro p
    rw [← List.countP_map, hmap, List.countP_map]
  refine ⟨?_, ?_⟩
  · rw [hsuccess, h.successCount]
    exact (hcount id).symm
  · rw [hfailure, h.failureCount]
    exact (hcount not).symm

theorem counted_recordedEpisode (episodeId tenantId sessionId : String) (config : EpisodeConfig)
    (steps : List EpisodeStep) :
    Counted (recordedEpisode episodeId tenantId sessionId config steps) where
  successCount := rfl
  failureCount := by
    have hlength := List.length_eq_countP_add_countP EpisodeStep.success (l := steps)
    simp only [recordedEpisode]
    have hnot : steps.countP (fun step => !step.success) =
        steps.countP fun step => ¬step.success = true := by
      congr 1
      funext step
      cases step.success <;> rfl
    omega

/-- What a task has to store : a recording, or a replay of what was loaded. -/
structure Storing (es : List Event) (task : Task) : Prop where
  recording : task.isReplay = false → ∃ episodeId tenantId sessionId config steps,
    (episodeId, steps) ∈ recordings es ∧
      task.episode = recordedEpisode episodeId tenantId sessionId config steps
  replay : task.isReplay = true → task.episode.IsJson ∧ Genuine es task.episode

/-- What is stored under an id. -/
structure Stored (es : List Event) (d : Dict String Episode) : Prop where
  episodeId : ∀ id episode, d.get? id = some episode → episode.episodeId = id
  isJson : ∀ id episode, d.get? id = some episode → episode.IsJson
  genuine : ∀ id episode, d.get? id = some episode → Genuine es episode

/-- What a task writes. -/
theorem Storing.reload (h : Storing es task) (hreload : task.episode.reload = some episode) :
    episode.IsJson ∧ Genuine es episode := by
  cases hreplay : task.isReplay with
  | true =>
    obtain ⟨hjson, hgenuine⟩ := h.replay hreplay
    rw [Episode.reload_of_isJson hjson] at hreload
    obtain rfl := Option.some.inj hreload
    exact ⟨hjson, hgenuine⟩
  | false =>
    obtain ⟨episodeId, tenantId, sessionId, config, steps, hmem, hepisode⟩ :=
      h.recording hreplay
    rw [hepisode] at hreload
    obtain ⟨hjson, hsteps, hid, -⟩ := Episode.reload_eq_some hreload
    refine ⟨hjson, (counted_recordedEpisode _ _ _ _ _).reload hreload, ?_⟩
    refine ⟨episodeId, steps, episode.steps, hmem, hsteps, ?_, Or.inl rfl⟩
    rw [hid]
    exact .recording

theorem Storing.raise (h : Storing es task) : Storing es task.raise := by
  unfold Task.raise
  split_ifs with hfirst
  · refine ⟨fun hreplay => absurd hfirst.1 (Bool.eq_false_iff.mp hreplay), fun _ => ?_⟩
    obtain ⟨hjson, hgenuine⟩ := h.replay hfirst.1
    exact ⟨⟨hjson.config, hjson.steps, hjson.metadata⟩,
      ⟨⟨hgenuine.counted.successCount, hgenuine.counted.failureCount⟩, hgenuine.origin⟩⟩
  · exact ⟨h.recording, h.replay⟩

/-- What the engine has and is about to store. -/
structure Kept (es : List Event) (s : EpisodeReplayEngine) : Prop where
  redis : Stored es s.redis
  files : Stored es s.files
  tasks : ∀ task ∈ s.tasks, Storing es task

theorem Stored.set {d : Dict String Episode} (h : Stored es d)
    (hepisode : episode.IsJson ∧ Genuine es episode) :
    Stored es (d.set episode.episodeId episode) := by
  refine ⟨fun id e he => ?_, fun id e he => ?_, fun id e he => ?_⟩
  all_goals
    rw [Dict.get?_set] at he
    split_ifs at he with hid
  · obtain rfl := Option.some.inj he
    exact hid.symm
  · exact h.episodeId id e he
  · obtain rfl := Option.some.inj he
    exact hepisode.1
  · exact h.isJson id e he
  · obtain rfl := Option.some.inj he
    exact hepisode.2
  · exact h.genuine id e he

theorem Stored.erase {d : Dict String Episode} (h : Stored es d) (episodeId : String) :
    Stored es (d.erase episodeId) := by
  have hget : ∀ id e, (d.erase episodeId).get? id = some e → d.get? id = some e := by
    intro id e he
    rw [Dict.get?_erase] at he
    split_ifs at he
    exact he
  exact ⟨fun id e he => h.episodeId id e (hget id e he),
    fun id e he => h.isJson id e (hget id e he), fun id e he => h.genuine id e (hget id e he)⟩

theorem Stored.snoc {d : Dict String Episode} (h : Stored es d) (e : Event) :
    Stored (es ++ [e]) d :=
  ⟨h.episodeId, h.isJson, fun id episode hget => (h.genuine id episode hget).snoc e⟩

theorem Storing.snoc (h : Storing es task) (e : Event) : Storing (es ++ [e]) task where
  recording hreplay := by
    obtain ⟨episodeId, tenantId, sessionId, config, steps, hmem, hepisode⟩ := h.recording hreplay
    refine ⟨episodeId, tenantId, sessionId, config, steps, ?_, hepisode⟩
    rw [recordings, List.filterMap_append]
    exact List.mem_append_left _ hmem
  replay hreplay := (h.replay hreplay).imp_right fun hgenuine => hgenuine.snoc e

theorem Kept.snoc (h : Kept es s) (e : Event) : Kept (es ++ [e]) s :=
  ⟨h.redis.snoc e, h.files.snoc e, fun task htask => (h.tasks task htask).snoc e⟩

/-- What is loaded was stored in Redis or in a file. -/
theorem Kept.loadEpisode (h : Kept es s) (hload : s.loadEpisode id = some episode) :
    episode.episodeId = id ∧ episode.IsJson ∧ Genuine es episode := by
  rcases Option.or_eq_some_iff.mp hload with hredis | ⟨-, hfile⟩
  · exact ⟨h.redis.episodeId id episode hredis, h.redis.isJson id episode hredis,
      h.redis.genuine id episode hredis⟩
  · exact ⟨h.files.episodeId id episode hfile, h.files.isJson id episode hfile,
      h.files.genuine id episode hfile⟩

theorem forall_mem_set {k : ℕ} {tasks : List Task} (h : ∀ task ∈ tasks, Storing es task)
    (htask : Storing es task) : ∀ task' ∈ tasks.set k task, Storing es task' := by
  intro task' hmem
  rcases List.mem_or_eq_of_mem_set hmem with hold | rfl
  · exact h task' hold
  · exact htask

theorem genuine_step (h : Kept es s) (hst : s.step e = some t) : Kept (es ++ [e]) t := by
  have h' := h.snoc e
  cases e with
  | recordEpisode episodeId tenantId sessionId config steps =>
    obtain rfl := Option.some.inj hst
    refine ⟨h'.redis, h'.files, List.forall_mem_append.mpr ⟨h'.tasks, ?_⟩⟩
    refine List.forall_mem_singleton.mpr ⟨fun _ => ?_, fun hreplay => (by cases hreplay)⟩
    refine ⟨episodeId, tenantId, sessionId, config, steps, ?_, rfl⟩
    rw [recordings, List.filterMap_append]
    exact List.mem_append_right _ List.mem_cons_self
  | replayEpisode episodeId mode targetTenantId now =>
    simp only [EpisodeReplayEngine.step] at hst
    cases hload : s.loadEpisode episodeId with
    | none =>
      rw [hload] at hst
      obtain rfl := Option.some.inj hst
      exact h'
    | some episode =>
      rw [hload] at hst
      obtain rfl := Option.some.inj hst
      obtain ⟨-, hjson, hgenuine⟩ := h'.loadEpisode hload
      refine ⟨h'.redis, h'.files, List.forall_mem_append.mpr ⟨h'.tasks, ?_⟩⟩
      refine List.forall_mem_singleton.mpr ⟨fun hreplay => (by cases hreplay), fun _ => ?_⟩
      exact ⟨hjson.replayedEpisode mode targetTenantId now,
        hgenuine.replayedEpisode mode targetTenantId now⟩
  | setex k ok =>
    simp only [EpisodeReplayEngine.step] at hst
    split at hst
    case h_2 => simp at hst
    case h_1 task hk =>
      have htask := h'.tasks task (List.mem_of_getElem? hk)
      split_ifs at hst with hstage
      split at hst
      case h_1 _ _ episode hreload =>
        obtain rfl := Option.some.inj hst
        exact ⟨h'.redis.set (htask.reload hreload), h'.files,
          forall_mem_set h'.tasks ⟨htask.recording, htask.replay⟩⟩
      case h_2 =>
        obtain rfl := Option.some.inj hst
        exact ⟨h'.redis, h'.files, forall_mem_set h'.tasks htask.raise⟩
  | write k ok =>
    simp only [EpisodeReplayEngine.step] at hst
    split at hst
    case h_2 => simp at hst
    case h_1 task hk =>
      have htask := h'.tasks task (List.mem_of_getElem? hk)
      split_ifs at hst with hstage
      split at hst
      case h_1 _ _ episode hreload =>
        obtain rfl := Option.some.inj hst
        exact ⟨h'.redis, h'.files.set (htask.reload hreload),
          forall_mem_set h'.tasks ⟨htask.recording, htask.replay⟩⟩
      case h_2 =>
        obtain rfl := Option.some.inj hst
        exact ⟨h'.redis, h'.files.erase _, forall_mem_set h'.tasks htask.raise⟩
  | expire episodeId =>
    obtain rfl := Option.some.inj hst
    exact ⟨h'.redis.erase episodeId, h'.files, h'.tasks⟩
  | unlink episodeId =>
    obtain rfl := Option.some.inj hst
    exact ⟨h'.redis, h'.files.erase episodeId, h'.tasks⟩

theorem kept_of_run (h : engineMachine.Run (fun _ _ => True) es s) : Kept es s := by
  induction h with
  | nil =>
    have hstored : Stored [] .empty := ⟨fun _ _ h => (by cases h), fun _ _ h => (by cases h),
      fun _ _ h => (by cases h)⟩
    exact ⟨hstored, hstored, fun _ h => absurd h List.not_mem_nil⟩
  | snoc _ _ hst ih => exact genuine_step ih hst

/-- Whatever episode can be loaded in any run is a recording, or what one replay makes of it,
however often it and its replays were replayed. -/
theorem genuine_of_run (h : engineMachine.Run (fun _ _ => True) es s)
    (hload : s.loadEpisode id = some episode) : episode.episodeId = id ∧ Genuine es episode := by
  obtain ⟨hid, -, hgenuine⟩ := (kept_of_run h).loadEpisode hload
  exact ⟨hid, hgenuine⟩

/-- A recorded failure, for the runs below. -/
def failedInput : EpisodeStep :=
  { stepId := "a", stepType := "input", inputData := [], outputData := [], success := false }

theorem genuine_of_two :
    ∃ es s episode, engineMachine.Run (fun _ _ => True) es s ∧
      s.loadEpisode "replay_replay_1f_5_7" = some episode ∧ Genuine es episode := by
  obtain ⟨s, hrun, hload⟩ := Machine.exists_run engineMachine (fun _ _ => True)
    [.recordEpisode "1f" "t" "s" ⟨"c", "m", "p", [], [], [], []⟩ [failedInput], .setex 0 true,
      .write 0 true, .expire "1f", .replayEpisode "1f" .similar none 5, .setex 1 true,
      .write 1 false, .setex 1 true, .replayEpisode "replay_1f_5" .exact (some "u") 7,
      .setex 2 true]
    (fun s => (s.loadEpisode "replay_replay_1f_5_7").isSome) (by decide +kernel)
  obtain ⟨episode, hepisode⟩ := Option.isSome_iff_exists.mp hload
  exact ⟨_, s, episode, hrun, hepisode, (genuine_of_run hrun hepisode).2⟩

/-! ## What an id tells -/

theorem replayId_inj {episodeId episodeId' : String} {now now' : ℤ}
    (h : replayId episodeId now = replayId episodeId' now') : episodeId = episodeId' := by
  have hchars := congrArg String.toList h
  simp only [replayId, String.toList_append, List.append_assoc] at hchars
  have hrest := List.append_cancel_left hchars
  obtain ⟨hid, -⟩ := Split.append_cons_inj (Decimal.not_mem_int (by decide) (by decide) now)
    (Decimal.not_mem_int (by decide) (by decide) now') hrest
  exact String.toList_inj.mp hid

theorem ne_replayId {root : String} (hroot : '_' ∉ root.toList) (episodeId : String) (now : ℤ) :
    root ≠ replayId episodeId now := by
  rintro rfl
  exact hroot (by simp [replayId])

/-- The recording can be read off the id of a replay. -/
theorem ReplayOf.unique {root root' : String} (hroot : '_' ∉ root.toList)
    (hroot' : '_' ∉ root'.toList) (h : ReplayOf root id) (h' : ReplayOf root' id) :
    root = root' := by
  induction h with
  | recording =>
    cases h' with
    | recording => rfl
    | replay now _ => exact absurd rfl (ne_replayId hroot _ now)
  | @replay episodeId now _ ih =>
    generalize hid : replayId episodeId now = id at h'
    cases h' with
    | recording => exact absurd hid.symm (ne_replayId hroot' _ now)
    | replay now' h' =>
      obtain rfl := replayId_inj hid
      exact ih h'

theorem recordings_unique {root : String} (hnodup : ((recordings es).map Prod.fst).Nodup)
    (h : (root, steps) ∈ recordings es) (h' : (root, steps') ∈ recordings es) :
    steps = steps' :=
  congrArg Prod.snd (List.inj_on_of_nodup_map hnodup h h' rfl)

end EpisodeReplay

end MultiAgent
