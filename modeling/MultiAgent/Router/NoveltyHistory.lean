import Mathlib.Data.List.Dedup
import Mathlib.Logic.Function.Basic
import MultiAgent.Lib.Machine
import MultiAgent.Lib.PyValue
import MultiAgent.Router.NoveltyDetector

/-!
# The history of a tenant

`analyze_novelty` of `libs/router/router_base.py` : the features of a text, and the Redis list of
the features of the last requests of a tenant. A call reads the list, computes its answer, pushes
its own features and trims the list, and any other calls may come in between. The list reads as
the features of what was stored last, whatever the interleaving (`History.Reads`).

`lower` and `isalnum` of Python are given from outside. `context_familiarity` is a coroutine that
nothing awaits, and is left out.
-/

namespace MultiAgent

namespace Router

open Average

/-! ## Features -/

/-- What Python knows about texts. -/
structure TextTables where
  lower : String → String
  isAlnum : Char → Bool

/-- What `_extract_features` returns. -/
structure Features where
  length : ℕ
  wordCount : ℕ
  sentenceCount : ℕ
  hasCode : Bool
  hasUrls : Bool
  hasMentions : Bool
  hasHashtags : Bool
  language : String
  complexity : ℚ
  topics : List String

/-- The features as a dictionary. -/
def Features.toDict (f : Features) : Dict String Feature where
  items := [("length", .int f.length), ("word_count", .int f.wordCount),
    ("sentence_count", .int f.sentenceCount), ("has_code", .bool f.hasCode),
    ("has_urls", .bool f.hasUrls), ("has_mentions", .bool f.hasMentions),
    ("has_hashtags", .bool f.hasHashtags), ("language", .str f.language),
    ("complexity", .float f.complexity), ("topics", .list f.topics)]
  nodup := show ["length", "word_count", "sentence_count", "has_code", "has_urls",
    "has_mentions", "has_hashtags", "language", "complexity", "topics"].Nodup by decide

variable (tables : TextTables)

/-- `part in text`. -/
def inText (part text : String) : Bool :=
  part.toList <:+: text.toList

/-- `text.split()`. -/
def splitWords (text : String) : List String :=
  ((text.toList.splitOnP PyValue.isSpace).filter fun word => !word.isEmpty).map String.ofList

/-- `_detect_language`. -/
def detectLanguage (text : String) : String :=
  if text.toList.any (· ∈
      "àáảãạăắằẳẵặâấầẩẫậèéẻẽẹêếềểễệìíỉĩịòóỏõọôốồổỗộơớờởỡợùúủũụưứừửữựỳýỷỹỵđ".toList)
  then "vietnamese"
  else if ["the", "and", "is", "in", "to", "of", "a", "that", "it"].any
      fun word => inText word (tables.lower text)
  then "english"
  else "unknown"

/-- `_calculate_text_complexity`. -/
def calculateTextComplexity (text : String) : ℚ :=
  if text = "" then 0
  else
    let length := min ((text.length : ℚ) / 1000) 1
    let vocabulary := ((splitWords (tables.lower text)).dedup.length : ℚ) /
      (max (splitWords text).length 1 : ℕ)
    let punctuation := text.toList.count '.' + text.toList.count '!' + text.toList.count '?'
    let specialChars := text.toList.countP fun c =>
      !tables.isAlnum c && !decide (c ∈ " .,!?".toList)
    (length + vocabulary + punctuation + specialChars) / 4

/-- The keywords of the topics. -/
def topicKeywords : List (String × List String) :=
  [("technical", ["code", "programming", "algorithm", "database", "api"]),
    ("business", ["revenue", "profit", "customer", "market", "strategy"]),
    ("creative", ["design", "art", "creative", "story", "imagine"]),
    ("analytical", ["analyze", "data", "statistics", "trend", "report"])]

/-- `_extract_topics`. -/
def extractTopics (text : String) : List String :=
  (topicKeywords.filter fun topic =>
    topic.2.any fun keyword => inText keyword (tables.lower text)).map Prod.fst

/-- `_extract_features` of a request with the text `text`. -/
def extractFeatures (text : String) : Features where
  length := text.length
  wordCount := (splitWords text).length
  sentenceCount := (Split.split '.' text).length
  hasCode := inText "```" text || inText "def " text || inText "class " text
  hasUrls := inText "http" text
  hasMentions := inText "@" text
  hasHashtags := inText "#" text
  language := detectLanguage tables text
  complexity := calculateTextComplexity tables text
  topics := extractTopics tables text

/-! ## The analysis -/

/-- `NoveltyAnalysis`. -/
structure NoveltyAnalysis where
  noveltyScore : ℚ
  similarityToHistory : ℚ
  uniquePatterns : List String
  complexityNovelty : ℚ

/-- `_calculate_similarity`. -/
def calculateSimilarity (features : Features) (patterns : List Features) : ℚ :=
  average (patterns.map fun pattern => featureSimilarity features.toDict pattern.toDict)

/-- `_identify_unique_patterns`. -/
def identifyUniquePatterns (features : Features) (patterns : List Features) : List String :=
  let rare := [("has_code", Features.hasCode), ("has_urls", Features.hasUrls),
      ("has_mentions", Features.hasMentions), ("has_hashtags", Features.hasHashtags)].filterMap
    fun (key, value) =>
      if value features ∧ (patterns.countP value : ℚ) < patterns.length * (1 / 10)
      then some ("rare_" ++ key) else none
  let unique := features.topics.filterMap fun item =>
    if ((patterns.countP fun pattern => item ∈ pattern.topics : ℕ) : ℚ) <
        patterns.length * (2 / 10)
    then some ("unique_topics_" ++ item) else none
  rare ++ unique

/-- `_calculate_complexity_novelty`. -/
def calculateComplexityNovelty (features : Features) (patterns : List Features) : ℚ :=
  if patterns = [] then 1
  else min (|features.complexity - average (patterns.map Features.complexity)| * 2) 1

/-- What `analyze_novelty` returns for the patterns that it reads. -/
def analysisOf (features : Features) (patterns : List Features) : NoveltyAnalysis where
  noveltyScore := noveltyScore features.toDict (patterns.map Features.toDict)
  similarityToHistory := calculateSimilarity features patterns
  uniquePatterns := identifyUniquePatterns features patterns
  complexityNovelty := calculateComplexityNovelty features patterns

/-! ## Interleavings -/

/-- `history_window`. -/
def historyWindow : ℕ := 1000

/-- Where a call of `analyze_novelty` waits. -/
inductive NoveltyStage
  | reading
  | pushing (analysis : NoveltyAnalysis)
  | trimming (analysis : NoveltyAnalysis)
  | returned (analysis : NoveltyAnalysis)

/-- A call for a request with the text `text`, and the texts that were stored within the last
`history_window` requests of the tenant when it read the history. -/
structure NoveltyCall where
  tenantId : String
  text : String
  recent : List String := []
  stage : NoveltyStage := .reading

/-- The Redis lists by their keys, the texts that were stored for each tenant, the last first,
and the calls in their order. -/
structure History where
  lists : String → List Features := fun _ => []
  stored : String → List String := fun _ => []
  calls : List NoveltyCall := []

/-- A call begins, or one goes on with its next command. -/
inductive NoveltyEvent
  | analyzeNovelty (tenantId text : String)
  | advance (i : ℕ)

/-- `f"novelty_history:{tenant_id}"`. -/
def historyKey (tenantId : String) : String :=
  "novelty_history:" ++ tenantId

namespace History

variable (s : History)

/-- The next command of a call : `LRANGE` with all that is computed from it, `LPUSH` and
`LTRIM`. -/
def command (call : NoveltyCall) : Option (History × NoveltyCall) :=
  let key := historyKey call.tenantId
  let features := extractFeatures tables call.text
  match call.stage with
  | .reading =>
    let patterns := (s.lists key).take historyWindow
    some (s, { call with
      recent := (s.stored call.tenantId).take historyWindow
      stage := .pushing (analysisOf features patterns) })
  | .pushing analysis =>
    some ({ s with
      lists := Function.update s.lists key (features :: s.lists key)
      stored := Function.update s.stored call.tenantId (call.text :: s.stored call.tenantId) },
      { call with stage := .trimming analysis })
  | .trimming analysis =>
    some ({ s with
      lists := Function.update s.lists key ((s.lists key).take historyWindow) },
      { call with stage := .returned analysis })
  | .returned _ => none

/-- One step. -/
def step : NoveltyEvent → Option History
  | .analyzeNovelty tenantId text => some { s with calls := s.calls ++ [{ tenantId, text }] }
  | .advance i =>
    match s.calls[i]? with
    | none => none
    | some call =>
      match s.command tables call with
      | none => none
      | some (t, call) => some { t with calls := s.calls.set i call }

/-- What the list of a tenant reads as : the features of the texts that were stored last. -/
def Reads : Prop :=
  ∀ tenantId, (s.lists (historyKey tenantId)).take historyWindow =
    ((s.stored tenantId).take historyWindow).map (extractFeatures tables)

end History

/-- What the call returns, as soon as it is computed. -/
def NoveltyStage.analysis? : NoveltyStage → Option NoveltyAnalysis
  | .reading => none
  | .pushing analysis => some analysis
  | .trimming analysis => some analysis
  | .returned analysis => some analysis

/-- The novelty lies between 0 and 1, and is 0 for a text that was stored recently. -/
def NoveltyCall.Sound (call : NoveltyCall) : Prop :=
  ∀ analysis, call.stage.analysis? = some analysis →
    (0 ≤ analysis.noveltyScore ∧ analysis.noveltyScore ≤ 1) ∧
      (call.text ∈ call.recent → analysis.noveltyScore = 0)

/-- All interleavings of calls. -/
def noveltyMachine : Machine History NoveltyEvent where
  init := {}
  step s e := s.step tables e

variable {tables}

theorem historyKey_injective : Function.Injective historyKey := fun _ _ h =>
  (String.append_right_inj _).mp h

/-- A dictionary is equal to itself. -/
theorem sameFeatures_refl (f : Dict String Feature) : SameFeatures f f := by
  intro key
  cases hv : f.get? key with
  | none => trivial
  | some v => cases v <;> simp [Feature.eq, Feature.number?]

/-- The features of a text are as similar to themselves as can be : there is the length. -/
theorem featureSimilarity_self (f : Features) : featureSimilarity f.toDict f.toDict = 1 :=
  featureSimilarity_eq_one (sameFeatures_refl _)
    (show f.toDict.get? "length" = some (.int f.length) from rfl) fun s => by simp

theorem sound_reading {s : History} (h : s.Reads tables) (call : NoveltyCall) :
    NoveltyCall.Sound { call with
      recent := (s.stored call.tenantId).take historyWindow
      stage := .pushing (analysisOf (extractFeatures tables call.text)
        ((s.lists (historyKey call.tenantId)).take historyWindow)) } := by
  intro analysis hanalysis
  obtain rfl := Option.some.inj hanalysis
  refine ⟨noveltyScore_mem_unit _ _, fun hrecent => ?_⟩
  refine noveltyScore_eq_zero (List.mem_map_of_mem ?_) (featureSimilarity_self _)
  rw [h call.tenantId]
  exact List.mem_map_of_mem hrecent

/-- A new first entry of lists that begin alike. -/
theorem take_cons_eq {α : Type*} {l m : List α} {n : ℕ} (h : l.take (n + 1) = m.take (n + 1))
    (x : α) : (x :: l).take (n + 1) = (x :: m).take (n + 1) := by
  have hshort := congrArg (List.take n) h
  rw [List.take_take, List.take_take, Nat.min_eq_left (Nat.le_succ n)] at hshort
  rw [List.take_succ_cons, List.take_succ_cons, hshort]

theorem reads_command {s t : History} {call call' : NoveltyCall} (h : s.Reads tables)
    (hst : s.command tables call = some (t, call')) : t.Reads tables := by
  unfold History.command at hst
  cases hstage : call.stage with
  | reading =>
    rw [hstage] at hst
    obtain ⟨rfl, -⟩ := Prod.mk.inj (Option.some.inj hst)
    exact h
  | pushing analysis =>
    rw [hstage] at hst
    obtain ⟨rfl, -⟩ := Prod.mk.inj (Option.some.inj hst)
    intro tenantId
    by_cases htenant : tenantId = call.tenantId
    · subst htenant
      dsimp only
      rw [Function.update_self, Function.update_self, List.map_take, List.map_cons]
      have hbefore := h call.tenantId
      rw [List.map_take] at hbefore
      exact take_cons_eq hbefore _
    · dsimp only
      rw [Function.update_of_ne htenant, Function.update_of_ne fun heq =>
        htenant (historyKey_injective heq)]
      exact h tenantId
  | trimming analysis =>
    rw [hstage] at hst
    obtain ⟨rfl, -⟩ := Prod.mk.inj (Option.some.inj hst)
    intro tenantId
    by_cases htenant : tenantId = call.tenantId
    · subst htenant
      dsimp only
      rw [Function.update_self, List.take_take, Nat.min_self]
      exact h call.tenantId
    · dsimp only
      rw [Function.update_of_ne fun heq => htenant (historyKey_injective heq)]
      exact h tenantId
  | returned analysis =>
    rw [hstage] at hst
    cases hst

/-- A command keeps what a call found. -/
theorem sound_command {s t : History} {call call' : NoveltyCall} (h : s.Reads tables)
    (hcall : call.Sound) (hst : s.command tables call = some (t, call')) : call'.Sound := by
  unfold History.command at hst
  cases hstage : call.stage with
  | reading =>
    rw [hstage] at hst
    obtain ⟨-, rfl⟩ := Prod.mk.inj (Option.some.inj hst)
    exact sound_reading h call
  | returned analysis =>
    rw [hstage] at hst
    cases hst
  | _ =>
    rw [hstage] at hst
    obtain ⟨-, rfl⟩ := Prod.mk.inj (Option.some.inj hst)
    intro analysis hanalysis
    exact hcall analysis (by rw [hstage]; exact hanalysis)

/-- One step keeps the lists and the calls right. -/
theorem sound_step {s t : History} {e : NoveltyEvent}
    (h : s.Reads tables ∧ ∀ call ∈ s.calls, call.Sound) (hst : s.step tables e = some t) :
    t.Reads tables ∧ ∀ call ∈ t.calls, call.Sound := by
  unfold History.step at hst
  cases e with
  | analyzeNovelty tenantId text =>
    obtain rfl := Option.some.inj hst
    refine ⟨h.1, fun call hcall => ?_⟩
    rcases List.mem_append.mp hcall with hcall | hcall
    · exact h.2 call hcall
    · obtain rfl := List.mem_singleton.mp hcall
      intro analysis hanalysis
      cases hanalysis
  | advance i =>
    cases hi : s.calls[i]? with
    | none => simp [hi] at hst
    | some call =>
      cases hcommand : s.command tables call with
      | none => simp [hi, hcommand] at hst
      | some result =>
        simp only [hi, hcommand] at hst
        obtain rfl := Option.some.inj hst
        have hreads : result.1.Reads tables := reads_command h.1 hcommand
        refine ⟨hreads, fun call' hcall' => ?_⟩
        rcases List.mem_or_eq_of_mem_set hcall' with hcall' | rfl
        · exact h.2 call' hcall'
        · exact sound_command h.1 (h.2 call (List.mem_of_getElem? hi)) hcommand

/-- The similarity is symmetric, lies between 0 and 1 and is 1 for equal dictionaries with a
number or a list; the novelty lies between 0 and 1; and in every run a request whose text was
stored within the last `history_window` requests of its tenant has the novelty 0. -/
theorem novelty_sound (tables : TextTables) :
    (∀ f g, featureSimilarity f g = featureSimilarity g f ∧
      0 ≤ featureSimilarity f g ∧ featureSimilarity f g ≤ 1) ∧
    (∀ f g, SameFeatures f g → (∃ key v, f.get? key = some v ∧ v.Comparable) →
      featureSimilarity f g = 1) ∧
    (∀ f patterns, 0 ≤ noveltyScore f patterns ∧ noveltyScore f patterns ≤ 1) ∧
    ∀ es s, (noveltyMachine tables).Run (fun _ _ => True) es s →
      ∀ call ∈ s.calls, call.Sound := by
  refine ⟨fun f g => ⟨featureSimilarity_comm f g, featureSimilarity_nonneg f g,
    featureSimilarity_le_one f g⟩, fun f g hsame ⟨key, v, hv, hcomparable⟩ =>
    featureSimilarity_eq_one hsame hv hcomparable, noveltyScore_mem_unit, fun es s hrun => ?_⟩
  have hinit : History.Reads tables {} ∧ ∀ call ∈ ({} : History).calls, call.Sound :=
    ⟨fun _ => rfl, fun _ hcall => absurd hcall List.not_mem_nil⟩
  exact (hrun.invariant hinit fun _ _ _ hs _ hst => sound_step hs hst).2

end Router

end MultiAgent
