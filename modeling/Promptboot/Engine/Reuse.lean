import Promptboot.Engine.Replay
import Promptboot.Engine.ZeroKernels

/-!
# Prefix reuse

A call that finds its prefix in the cache returns what it returns on a fresh engine. The invariant
is `Retains`: the rows below the retained length are those a replay of the retained tokens computes,
whatever calls came between. `prefillAccepted_resumes` is the simulation, from a cache that holds a
prefix to an engine that starts over; `prefill` shares it, and differs from a fresh run exactly when
a retained prefix was left in place.

The helpers `prefillRetaining_retains` and `prefillWithPrefix_retains` keep the invariant,
`EngineOp.call_retains` has one case per method and `runOps_retains` is the run. The headlines are
`prefillWithPrefix_agrees_fresh` and, for the call that resets nothing, `prefill_agrees_fresh_iff`.
-/

namespace Promptboot
open Fallible

variable {K : Kernels}

/-- What a caller can see of two finished calls, the KV rows below the position included. -/
structure Agreement (s t : Evaluation) : Prop where
  logits : t.logits = s.logits
  position : t.engine.position = s.engine.position
  generationReserve : t.engine.generationReserve = s.engine.generationReserve
  predictionsEmitted : t.engine.predictionsEmitted = s.engine.predictionsEmitted
  state : t.engine.state = s.engine.state
  rows : ∀ p < s.engine.position, kvRow t.engine.kv p = kvRow s.engine.kv p

/-- A publication reads the logits, the position and the model only. -/
lemma publishStep_agrees {s t s' : Evaluation} {step : InferenceStep} (logits : t.logits = s.logits)
    (position : t.engine.position = s.engine.position) (model : t.engine.model = s.engine.model)
    (h : publishStep K s = (.ok step, s')) :
    ∃ t', publishStep K t = (.ok step, t') ∧ t'.logits = s'.logits ∧
      t'.engine = { t.engine with
        lastSelected := s'.engine.lastSelected
        state := s'.engine.state } ∧
      s'.engine = { s.engine with
        lastSelected := s'.engine.lastSelected
        state := s'.engine.state } := by
  unfold publishStep at h ⊢
  rw [logits, position, model]
  split at h
  · cases h
  · cases h
    exact ⟨_, rfl, rfl, rfl, rfl⟩

/-- The state in which a prefill evaluates its prompt. -/
def reserved (generationReserve : Nat) (s : Evaluation) : Evaluation :=
  { s with engine := { s.engine with generationReserve, predictionsEmitted := 0 } }

/-- The state in which a prefill publishes its step. -/
def counted (s : Evaluation) : Evaluation :=
  { s with engine := { s.engine with predictionsEmitted := 1 } }

/-- A prefill succeeds through the evaluations of its prompt and a publication. -/
lemma prefillAccepted_eq_ok {promptTokens : List Token} {reserve : Nat} {s s' : Evaluation}
    {step : InferenceStep} :
    prefillAccepted K promptTokens reserve s = (.ok step, s') ↔
      ∃ u, evaluatePrompt K promptTokens (reserved reserve s) = (.ok (), u) ∧
        publishStep K (counted u) = (.ok step, s') := by
  unfold prefillAccepted
  rw [bind_ok (modify_apply _ _)]
  change (onError (evaluatePrompt K promptTokens) (fun _ => fault) >>= _) (reserved reserve s) = _ ↔ _
  rcases hs : evaluatePrompt K promptTokens (reserved reserve s) with ⟨err | _, v⟩
  · have stopped : onError (evaluatePrompt K promptTokens) (fun _ => fault) (reserved reserve s) =
        (.error err, fault v) := by
      rw [onError, hs]
    rw [bind_error stopped]
    constructor
    · intro h
      cases h
    · rintro ⟨u, bad, _⟩
      cases bad
  · have stored : onError (evaluatePrompt K promptTokens) (fun _ => fault) (reserved reserve s) =
        (.ok (), v) := by
      rw [onError, hs]
    rw [bind_ok stored, bind_ok (modify_apply _ _)]
    constructor
    · exact fun h => ⟨v, rfl, h⟩
    · rintro ⟨u, e, h⟩
      cases e
      exact h

/-- What the evaluations of a prompt leave, when they all finish. -/
lemma evaluatePrompt_eq_ok {promptTokens : List Token} {s t : Evaluation}
    (scratch : s.engine.scratch = .zero)
    (context : s.engine.position + promptTokens.length ≤ contextLimit)
    (h : evaluatePrompt K promptTokens s = (.ok (), t)) :
    Advanced promptTokens.length s t ∧ t.engine.scratch = .zero := by
  rcases evaluateAll_spec scratch (by simpa using context) h with ⟨_, moved, clear⟩ | ⟨_, _, bad, _⟩
  · rw [List.length_zipIdx] at moved
    exact ⟨moved, clear⟩
  · cases bad

/-- Continuing from a cache that holds the first part of a prompt is the same as starting over. -/
lemma prefillAccepted_resumes {held rest : List Token} {reserve : Nat} {s s' f : Evaluation}
    {step : InferenceStep} (holds : s.engine.Holds K held)
    (position : s.engine.position = held.length) (scratch : s.engine.scratch = .zero)
    (logits : s.logits.length = logitWords) (nonempty : rest ≠ [])
    (context : held.length + rest.length ≤ contextLimit) (restarted : Restarted s.engine f)
    (h : prefillAccepted K rest reserve s = (.ok step, s')) :
    ∃ f', prefillAccepted K (held ++ rest) reserve f = (.ok step, f') ∧ Agreement s' f' := by
  obtain ⟨v, evaluated, published⟩ := prefillAccepted_eq_ok.mp h
  have restarted₀ : Restarted (reserved reserve s).engine (reserved reserve f) :=
    ⟨⟨restarted.machine.model, restarted.machine.backend, restarted.machine.dispatcher⟩,
      restarted.position, restarted.scratch, restarted.logits⟩
  have holds₀ : (reserved reserve s).engine.Holds K held := holds.congr ⟨rfl, rfl, rfl⟩ fun _ _ => rfl
  obtain ⟨u, replayed, rows⟩ := holds₀ _ restarted₀
  have same : SameRows (reserved reserve s) u :=
    SameRows.of_replay restarted₀ replayed rows rfl position scratch (by omega) logits
  have room : (reserved reserve s).engine.position + rest.length ≤ contextLimit := by
    show s.engine.position + _ ≤ _
    omega
  -- The rest of the prompt, from both.
  obtain ⟨e, ok⟩ := evaluatePrompt_agrees (K := K) same nonempty scratch room
  rcases hu : evaluatePrompt K rest u with ⟨err | _, w⟩ <;> rw [evaluated, hu] at e ok <;> cases e
  obtain ⟨after, values⟩ := ok rfl
  have whole : evaluatePrompt K (held ++ rest) (reserved reserve f) = (.ok (), w) := by
    rw [evaluatePrompt_append nonempty, bind_ok replayed, hu]
  have moved := (evaluatePrompt_eq_ok (s := reserved reserve s) scratch room evaluated).1
  have moved' := (evaluatePrompt_eq_ok restarted₀.scratch
    (by rw [restarted₀.position, List.length_append]; omega) whole).1
  obtain ⟨f', published', logits', engine', engine⟩ :=
    publishStep_agrees (s := counted v) (t := counted w) values.symm after.position.symm
      after.model.symm published
  refine ⟨f', prefillAccepted_eq_ok.mpr ⟨w, whole, published'⟩, logits', ?_, ?_, ?_, ?_, ?_⟩
  · rw [engine', engine]
    exact after.position.symm
  · rw [engine', engine]
    show w.engine.generationReserve = v.engine.generationReserve
    rw [moved.engine, moved'.engine]
    rfl
  · rw [engine', engine]
    rfl
  · rw [engine']
  · rw [engine', engine]
    intro p hp
    have hp : p < v.engine.position := hp
    have inside : p < contextLimit := by
      rw [moved.position] at hp
      omega
    funext layer kind head component
    exact (after.kv ⟨layer, kind, ⟨p, inside⟩, head, component⟩ hp).symm

/-- The tokens whose rows the engine retains. -/
def InferenceEngine.retainedTokens (engine : InferenceEngine) : List Token :=
  engine.retainedPrefix.tokens.toList.take engine.retainedPrefix.len

/-- The retained rows are those of the retained tokens. -/
structure InferenceEngine.Retains (K : Kernels) (engine : InferenceEngine) : Prop where
  holds : engine.Holds K engine.retainedTokens
  length : engine.retainedTokens.length = engine.retainedPrefix.len
  valid : ∀ token ∈ engine.retainedTokens, token.toNat < vocabCount

/-- With nothing retained there is nothing to keep. -/
lemma InferenceEngine.retains_of_empty {engine : InferenceEngine}
    (h : engine.retainedPrefix = .empty) : engine.Retains K := by
  have tokens : engine.retainedTokens = [] := by
    unfold retainedTokens
    rw [h]
    rfl
  refine ⟨?_, ?_, ?_⟩
  · rw [tokens]
    exact engine.holds_nil
  · rw [tokens, h]
    rfl
  · rw [tokens]
    exact nofun

/-- Retention survives whatever leaves the machine and the retained rows alone. -/
lemma InferenceEngine.Retains.congr {e f : InferenceEngine} (h : e.Retains K)
    (retained : f.retainedPrefix = e.retainedPrefix) (machine : SameMachine e f)
    (kv : ∀ c : KvCoord, c.position.val < e.retainedPrefix.len → f.kv c.word = e.kv c.word) :
    f.Retains K := by
  have tokens : f.retainedTokens = e.retainedTokens := by
    unfold retainedTokens
    rw [retained]
  refine ⟨?_, ?_, ?_⟩
  · rw [tokens]
    exact h.holds.congr machine fun c hc => kv c (by rwa [h.length] at hc)
  · rw [tokens, retained, h.length]
  · rw [tokens]
    exact h.valid

/-- A settled call keeps what is retained. -/
lemma Settled.retains {rejection : Option InferenceError} {n reserve emitted : Nat}
    {s t : Evaluation} {r : Except InferenceError InferenceStep}
    (h : Settled rejection n reserve emitted s r t) (inv : s.engine.Invariant)
    (retains : s.engine.Retains K) : t.engine.Retains K := by
  cases h with
  | rejected => exact retains
  | accepted _ done =>
    have below : ∀ c : KvCoord, c.position.val < s.engine.retainedPrefix.len →
        t.engine.kv c.word = s.engine.kv c.word := by
      intro c hc
      obtain ⟨_, le⟩ := inv.retained (by omega)
      exact done.kv c (by omega)
    exact retains.congr (by rw [done.engine]) done.machine below
  | failed _ _ failed => exact InferenceEngine.retains_of_empty failed.retained

/-- Taking what a call retained gives back its prefix. -/
lemma RetainedPrefix.of_tokens {promptTokens : List Token} {prefixTokens : Nat}
    (short : prefixTokens < promptTokens.length) (bound : prefixTokens ≤ maxTokens) :
    (RetainedPrefix.of promptTokens prefixTokens).tokens.toList.take prefixTokens =
      promptTokens.take prefixTokens := by
  apply List.ext_getElem
  · simp only [List.length_take, Vector.length_toList]
    omega
  · intro i h₁ h₂
    rw [List.length_take] at h₂
    have lt : i < prefixTokens := by omega
    have inside : i < promptTokens.length := by omega
    simp only [List.getElem_take, Vector.getElem_toList, RetainedPrefix.of, Vector.getElem_ofFn,
      if_pos lt]
    rw [List.getD_eq_getElem?_getD, List.getElem?_eq_getElem inside]
    rfl

/-- A prefill extends what the cache holds by its prompt. -/
lemma prefillAccepted_holds {held promptTokens : List Token} {reserve : Nat} {s t : Evaluation}
    {step : InferenceStep} (holds : s.engine.Holds K held)
    (position : s.engine.position = held.length) (scratch : s.engine.scratch = .zero)
    (logits : s.logits.length = logitWords)
    (context : held.length + promptTokens.length ≤ contextLimit)
    (h : prefillAccepted K promptTokens reserve s = (.ok step, t)) :
    t.engine.Holds K (held ++ promptTokens) := by
  obtain ⟨u, evaluated, published⟩ := prefillAccepted_eq_ok.mp h
  have holds₀ : (reserved reserve s).engine.Holds K held := holds.congr ⟨rfl, rfl, rfl⟩ fun _ _ => rfl
  have grown := evaluateAll_holds holds₀ position scratch logits (by simpa using context) evaluated
  have tokens : promptTokens.zipIdx.map Prod.fst = promptTokens := List.zipIdx_map_fst 0 promptTokens
  rw [tokens] at grown
  obtain ⟨_, _, _, _, engine⟩ := publishStep_agrees rfl rfl rfl published
  refine grown.congr ?_ ?_ <;> rw [engine]
  · exact ⟨rfl, rfl, rfl⟩
  · exact fun _ _ => rfl

section Run

variable {s t : Evaluation} {r : Except InferenceError InferenceStep} {promptTokens : List Token}
  {prefixTokens reserve : Nat}

/-- An engine in reset without a retained prefix is at the start of the context. -/
lemma InferenceEngine.Invariant.position_eq_zero {engine : InferenceEngine} (inv : engine.Invariant)
    (state : engine.state = .reset) (empty : engine.retainedPrefix.len = 0) :
    engine.position = 0 := by
  rcases inv.reset state with zero | ⟨nonzero, _⟩
  · exact zero
  · exact absurd empty nonzero

/-- Retaining the prefix of a prefill that started over. -/
lemma prefillRetaining_retains (inv : s.engine.Invariant) (retains : s.engine.Retains K)
    (empty : s.engine.retainedPrefix.len = 0) (short : prefixTokens < promptTokens.length)
    (bound : prefixTokens ≤ maxTokens)
    (h : prefillRetaining K promptTokens prefixTokens reserve s = (r, t)) :
    t.engine.Retains K := by
  unfold prefillRetaining at h
  rcases hp : prefill K promptTokens reserve s with ⟨e | step, u⟩
  · rw [bind_error hp] at h
    cases h
    exact (prefill_settles inv.scratch hp).retains inv retains
  · rw [bind_ok hp, bind_ok (modify_apply _ _)] at h
    cases h
    have settled := prefill_settles inv.scratch hp
    cases settled with
    | accepted none done =>
      obtain ⟨state, checks⟩ := freshRejection_eq_none.mp none
      obtain ⟨_, _, room, logits, valid⟩ := prefillRejection_eq_none.mp checks
      have position := inv.position_eq_zero state empty
      have accepted : prefillAccepted K promptTokens reserve s = (.ok step, u) := by
        unfold prefill prefillInner accepting at hp
        rw [state] at hp
        dsimp only at hp
        rwa [checks] at hp
      have grown := prefillAccepted_holds s.engine.holds_nil position inv.scratch logits
        (by rw [List.length_nil]; omega) accepted
      rw [List.nil_append, ← List.take_append_drop prefixTokens promptTokens] at grown
      have kept := grown.append_left (by rw [List.take_append_drop]; omega)
      have tokens := RetainedPrefix.of_tokens short bound
      refine ⟨?_, ?_, ?_⟩
      · show InferenceEngine.Holds K _ (List.take _ _)
        rw [show (RetainedPrefix.of promptTokens prefixTokens).len = prefixTokens from rfl, tokens]
        exact kept.congr ⟨rfl, rfl, rfl⟩ fun _ _ => rfl
      · show (List.take _ _).length = _
        rw [show (RetainedPrefix.of promptTokens prefixTokens).len = prefixTokens from rfl, tokens,
          List.length_take]
        omega
      · show ∀ token ∈ List.take _ _, _
        rw [show (RetainedPrefix.of promptTokens prefixTokens).len = prefixTokens from rfl, tokens]
        exact fun token member => valid token (List.mem_of_mem_take member)

/-- A prefill with a prefix retains what its rows hold. -/
lemma prefillWithPrefix_retains (inv : s.engine.Invariant) (retains : s.engine.Retains K)
    (h : prefillWithPrefix K promptTokens prefixTokens reserve s = (r, t)) :
    t.engine.Retains K := by
  unfold prefillWithPrefix at h
  dsimp only at h
  split at h
  · cases h
    exact InferenceEngine.retains_of_empty rfl
  split at h
  · rename_i valid empty
    exact prefillRetaining_retains inv retains empty (by omega) (by omega) h
  split at h
  · exact (prefillInner_settles inv.scratch h).retains inv retains
  split at h
  · cases h
    exact InferenceEngine.retains_of_empty rfl
  · rename_i valid _ _ _
    exact prefillRetaining_retains (InferenceEngine.resetState_invariant _)
      (InferenceEngine.retains_of_empty rfl) rfl (by omega) (by omega) h

/-- A reset to the prefix keeps what is retained. -/
lemma InferenceEngine.resetToPrefix_retains {engine : InferenceEngine} (retains : engine.Retains K) :
    engine.resetToPrefix.2.Retains K := by
  unfold resetToPrefix
  split
  · exact retains.congr rfl ⟨rfl, rfl, rfl⟩ fun _ _ => rfl
  · exact retains_of_empty rfl

/-- One call keeps the retained rows. -/
lemma EngineOp.call_retains {engine : InferenceEngine} (inv : engine.Invariant)
    (retains : engine.Retains K) (op : EngineOp) : (op.call K engine).2.engine.Retains K := by
  have method : ∀ {m : EngineM InferenceStep} {logits : List Word},
      (∀ r t, m ⟨engine, logits, []⟩ = (r, t) → t.engine.Retains K) →
      (outcome m engine logits).2.engine.Retains K := by
    intro m logits h
    unfold outcome
    rcases hm : m ⟨engine, logits, []⟩ with ⟨_ | _, t⟩ <;> exact h _ _ hm
  cases op with
  | prefill => exact method fun _ _ h => (prefill_settles inv.scratch h).retains inv retains
  | prefillWithPrefix => exact method fun _ _ h => prefillWithPrefix_retains inv retains h
  | appendPrefill =>
    exact method fun _ _ h => (appendPrefill_settles inv.scratch h).retains inv retains
  | decode => exact method fun _ _ h => (decodeInner_settles h).retains inv retains
  | decodeSelected => exact method fun _ _ h => (decodeInner_settles h).retains inv retains
  | reset => exact InferenceEngine.retains_of_empty rfl
  | resetToPrefix => exact InferenceEngine.resetToPrefix_retains retains

/-- Every sequence of calls keeps the retained rows. -/
lemma runOps_retains {engine : InferenceEngine} (inv : engine.Invariant)
    (retains : engine.Retains K) (ops : List EngineOp) :
    (runOps engine (ops.map fun op => (K, op))).Retains K := by
  induction ops generalizing engine with
  | nil => exact retains
  | cons op ops ih => exact ih (op.call_spec inv).invariant (op.call_retains inv retains)

/-- A successful prefill in the terms of the simulation: the rest of a prompt, evaluated on a cache
that holds its first part. -/
structure Resumption (K : Kernels) (held rest : List Token) (reserve : Nat) (step : InferenceStep)
    (s t : Evaluation) : Prop where
  holds : s.engine.Holds K held
  position : s.engine.position = held.length
  scratch : s.engine.scratch = .zero
  logits : s.logits.length = logitWords
  nonempty : rest ≠ []
  valid : ∀ token ∈ held ++ rest, token.toNat < vocabCount
  positive : 1 ≤ reserve
  room : held.length + rest.length + reserve ≤ contextLimit
  run : prefillAccepted K rest reserve s = (.ok step, t)

/-- The checks of a prefill pass on an engine that starts over, and the runs agree. -/
lemma Resumption.fresh {held rest : List Token} {step : InferenceStep} {f : Evaluation}
    (h : Resumption K held rest reserve step s t) (restarted : Restarted s.engine f)
    (state : f.engine.state = .reset) :
    ∃ f', prefill K (held ++ rest) reserve f = (.ok step, f') ∧ Agreement t f' := by
  obtain ⟨f', run, agree⟩ := prefillAccepted_resumes h.holds h.position h.scratch h.logits
    h.nonempty (by have := h.room; omega) restarted h.run
  have room := h.room
  have one := h.positive
  have length : (held ++ rest).length = held.length + rest.length := List.length_append
  have checks : f.engine.prefillRejection (held ++ rest) reserve f.logits.length false = none := by
    refine prefillRejection_eq_none.mpr ⟨one, by simp [h.nonempty], ?_, restarted.logits, h.valid⟩
    rw [restarted.position]
    omega
  refine ⟨f', ?_, agree⟩
  unfold prefill prefillInner accepting
  rw [state]
  dsimp only
  rw [checks, run]

/-- A prefill that succeeds at the start of the context resumes nothing. -/
lemma prefill_resumption {step : InferenceStep} (inv : s.engine.Invariant)
    (position : s.engine.position = 0)
    (h : prefill K promptTokens reserve s = (.ok step, t)) :
    Resumption K [] promptTokens reserve step s t := by
  cases prefill_settles inv.scratch h with
  | accepted none done =>
    obtain ⟨state, checks⟩ := freshRejection_eq_none.mp none
    obtain ⟨one, nonempty, room, logits, valid⟩ := prefillRejection_eq_none.mp checks
    refine ⟨s.engine.holds_nil, position, inv.scratch, logits, nonempty, ?_, one, ?_, ?_⟩
    · exact valid
    · rw [List.length_nil]
      omega
    · unfold prefill prefillInner accepting at h
      rw [state] at h
      dsimp only at h
      rwa [checks] at h

/-- With nothing retained the whole prompt is evaluated. -/
lemma prefillRetaining_resumption {step : InferenceStep} (inv : s.engine.Invariant)
    (empty : s.engine.retainedPrefix.len = 0)
    (h : prefillRetaining K promptTokens prefixTokens reserve s = (.ok step, t)) :
    ∃ u, Resumption K [] promptTokens reserve step s u ∧
      t = { u with
        engine := { u.engine with retainedPrefix := .of promptTokens prefixTokens } } := by
  unfold prefillRetaining at h
  obtain ⟨step', u, hp, rest⟩ := bind_eq_ok h
  rw [bind_ok (modify_apply _ _)] at rest
  cases rest
  have state : s.engine.state = .reset := by
    cases prefill_settles inv.scratch hp with
    | accepted none => exact (freshRejection_eq_none.mp none).1
  exact ⟨u, prefill_resumption inv (inv.position_eq_zero state empty) hp, rfl⟩

/-- A successful `prefill_with_prefix` resumes from what the cache holds of its prefix. -/
lemma prefillWithPrefix_resumption {step : InferenceStep} (inv : s.engine.Invariant)
    (retains : s.engine.Retains K)
    (h : prefillWithPrefix K promptTokens prefixTokens reserve s = (.ok step, t)) :
    (prefixTokens ≠ 0 ∧ prefixTokens < promptTokens.length ∧ prefixTokens ≤ maxTokens) ∧
      ∃ held rest s' t' retained, held ++ rest = promptTokens ∧ SameMachine s.engine s'.engine ∧
        s'.logits = s.logits ∧ Resumption K held rest reserve step s' t' ∧
        t = { t' with engine := { t'.engine with retainedPrefix := retained } } := by
  unfold prefillWithPrefix at h
  dsimp only at h
  split at h
  · cases h
  rename_i valid
  refine ⟨⟨by omega, by omega, by omega⟩, ?_⟩
  split at h
  -- without a retained prefix it is a fresh prefill
  · rename_i empty
    obtain ⟨u, resumed, e⟩ := prefillRetaining_resumption inv empty h
    exact ⟨[], promptTokens, s, u, _, rfl, .refl _, rfl, resumed, e⟩
  split at h
  -- the engine retains the prefix already, so only the rest is evaluated
  · rename_i reuse
    obtain ⟨_, position, len, tokens⟩ := of_decide_eq_true reuse
    have held : s.engine.retainedTokens = promptTokens.take prefixTokens := by
      unfold InferenceEngine.retainedTokens
      rw [len, tokens]
    cases prefillInner_settles inv.scratch h with
    | accepted none done =>
      obtain ⟨one, nonempty, room, logits, dropped⟩ := prefillRejection_eq_none.mp none
      refine ⟨promptTokens.take prefixTokens, promptTokens.drop prefixTokens, s, t,
        t.engine.retainedPrefix, List.take_append_drop _ _, .refl _, rfl, ?_, rfl⟩
      have length : (promptTokens.take prefixTokens).length = prefixTokens := by
        rw [List.length_take]
        omega
      refine ⟨?_, by omega, inv.scratch, logits, nonempty, ?_, one, by omega, ?_⟩
      · rw [← held]
        exact retains.holds
      · intro token member
        rcases List.mem_append.mp member with first | second
        · exact retains.valid token (by rwa [held])
        · exact dropped token second
      · unfold prefillInner accepting at h
        rwa [none] at h
  split at h
  · cases h
  · obtain ⟨u, resumed, e⟩ := prefillRetaining_resumption
      (InferenceEngine.resetState_invariant _) rfl h
    exact ⟨[], promptTokens, { s with engine := s.engine.resetState }, u, _, rfl, ⟨rfl, rfl, rfl⟩, rfl,
      resumed, e⟩

/-- A freshly built engine on the machine of another one is ready to start over. -/
lemma build_restarted {cpu : Cpu} {model : ModelView} {kvStorage scratchStorage : Storage}
    {dispatcher : Option InferenceDispatcher} {engine fresh : InferenceEngine} {logits : List Word}
    (built : InferenceEngine.build cpu model kvStorage scratchStorage dispatcher = .ok fresh)
    (same : SameMachine engine fresh) (length : logits.length = logitWords) :
    Restarted engine ⟨fresh, logits, []⟩ ∧ fresh.state = .reset ∧ fresh.retainedPrefix.len = 0 := by
  unfold InferenceEngine.build at built
  split at built
  · cases built
  split at built
  · cases built
  cases built
  exact ⟨⟨same, rfl, rfl, length⟩, rfl, rfl⟩

end Run

section Claims

variable {cpu : Cpu} {model : ModelView} {dispatcher : Option InferenceDispatcher}
  {kvStorage scratchStorage kvStorage' scratchStorage' : Storage} {engine fresh : InferenceEngine}

/-- Engines built alike but for their storage have the same machine. -/
lemma build_machine
    (built : InferenceEngine.build cpu model kvStorage scratchStorage dispatcher = .ok engine)
    (built' : InferenceEngine.build cpu model kvStorage' scratchStorage' dispatcher = .ok fresh) :
    SameMachine engine fresh := by
  unfold InferenceEngine.build at built built'
  split at built
  · cases built
  split at built
  · cases built
  split at built'
  · cases built'
  split at built'
  · cases built'
  cases built
  cases built'
  exact ⟨rfl, rfl, rfl⟩

/-- A built engine retains nothing. -/
lemma build_retains
    (built : InferenceEngine.build cpu model kvStorage scratchStorage dispatcher = .ok engine) :
    engine.Retains K := by
  unfold InferenceEngine.build at built
  split at built
  · cases built
  split at built
  · cases built
  cases built
  exact InferenceEngine.retains_of_empty rfl

/-- A call that retains a prefix, followed by a reset to it. -/
lemma runOps_retain_reset {logits : List Word} {promptTokens : List Token}
    {prefixTokens reserve : Nat} {r : Except InferenceError InferenceStep} {t : Evaluation}
    (run : prefillWithPrefix K promptTokens prefixTokens reserve ⟨engine, logits, []⟩ = (r, t)) :
    runOps engine ([.prefillWithPrefix promptTokens prefixTokens reserve logits,
      .resetToPrefix].map fun op => (K, op)) = t.engine.resetToPrefix.2 := by
  simp only [runOps, List.map_cons, List.map_nil, List.foldl_cons, List.foldl_nil, EngineOp.call,
    outcome, run]
  cases r <;> rfl

/-- The calls that leave one retained row behind. -/
def retainOne : List EngineOp := [.prefillWithPrefix [0, 1] 1 1 zeroLogits, .resetToPrefix]

/-- A serial engine in reset at the end of its only retained row. -/
structure RetainsOne (engine : InferenceEngine) : Prop where
  state : engine.state = .reset
  position : engine.position = 1
  retained : engine.retainedPrefix = .of [0, 1] 1
  scratch : engine.scratch = .zero
  serial : engine.dispatcher = none

/-- The example's engine retains one token. -/
lemma retainOne_retains :
    RetainsOne (runOps blankEngine (retainOne.map fun op => (zeroKernels, op))) := by
  have ready : Ready ⟨blankEngine, zeroLogits, []⟩ := ⟨rfl, rfl, rfl⟩
  have checks : blankEngine.freshRejection [0, 1] 1 logitWords = none :=
    freshRejection_eq_none.mpr ⟨rfl, prefillRejection_eq_none.mpr
      ⟨Nat.le_refl 1, by simp, by decide, rfl, by simp [vocabCount]⟩⟩
  have valid : ¬(1 = 0 ∨ [(0 : Token), 1].length ≤ 1 ∨ maxTokens < 1) := by decide
  obtain ⟨step, t, run, done⟩ := prefillWithPrefix_zero ready rfl valid checks
  have position : t.engine.position = 2 := by
    rw [done.engine]
    rfl
  have kept : ({ t.engine with
      retainedPrefix := .of [0, 1] 1 } : InferenceEngine).retainedValid = true := by
    unfold InferenceEngine.retainedValid
    dsimp only
    have one : (RetainedPrefix.of [0, 1] 1).len = 1 := rfl
    rcases done.state with state | state <;> rw [state, position, one] <;> rfl
  unfold retainOne
  rw [runOps_retain_reset run, InferenceEngine.resetToPrefix, if_pos kept]
  refine ⟨rfl, rfl, rfl, rfl, ?_⟩
  dsimp only
  rw [done.engine]
  rfl

/-- A call with the retained prefix reuses its row. -/
lemma RetainsOne.reuse (h : RetainsOne engine) :
    ∃ step t, prefillWithPrefix zeroKernels [0, 2] 1 1 ⟨engine, zeroLogits, []⟩ = (.ok step, t) := by
  have checks : engine.prefillRejection [2] 1 zeroLogits.length true = none := by
    refine prefillRejection_eq_none.mpr ⟨Nat.le_refl 1, by simp, ?_, zeroLogits_length,
      by simp [vocabCount]⟩
    rw [h.position]
    decide
  have reuses : engine.reuses [0, 2] 1 = true := by
    unfold InferenceEngine.reuses
    rw [h.state, h.position, h.retained, RetainedPrefix.of_tokens (by decide) (by decide)]
    rfl
  have held : engine.retainedPrefix.len ≠ 0 := by
    rw [h.retained]
    exact Nat.one_ne_zero
  have ready : Ready ⟨engine, zeroLogits, []⟩ := ⟨h.scratch, rfl, h.serial⟩
  obtain ⟨step, t, run⟩ := prefillInner_zero ready checks
  refine ⟨step, t, ?_⟩
  unfold prefillWithPrefix
  dsimp only
  rw [if_neg (by decide), if_neg held, if_pos reuses]
  exact run

/-- A plain prefill starts at the end of the retained row. -/
lemma RetainsOne.prefill (h : RetainsOne engine) :
    ∃ step t, Promptboot.prefill zeroKernels [0] 1 ⟨engine, zeroLogits, []⟩ = (.ok step, t) ∧
      t.engine.position = 2 := by
  have checks : engine.freshRejection [0] 1 logitWords = none := by
    refine freshRejection_eq_none.mpr ⟨h.state, prefillRejection_eq_none.mpr
      ⟨Nat.le_refl 1, by simp, ?_, rfl, by simp [vocabCount]⟩⟩
    rw [h.position]
    decide
  have ready : Ready ⟨engine, zeroLogits, []⟩ := ⟨h.scratch, rfl, h.serial⟩
  obtain ⟨step, t, run, done⟩ := prefill_zero ready checks
  refine ⟨step, t, run, ?_⟩
  rw [done.engine]
  show engine.position + 1 = 2
  rw [h.position]

/-- Whatever ran before, a successful `prefill_with_prefix` returns and leaves what the same call
does on an engine that has never run anything. -/
theorem prefillWithPrefix_agrees_fresh
    (built : InferenceEngine.build cpu model kvStorage scratchStorage dispatcher = .ok engine)
    (built' : InferenceEngine.build cpu model kvStorage' scratchStorage' dispatcher = .ok fresh)
    (ops : List EngineOp) (promptTokens : List Token) (prefixTokens reserve : Nat)
    (logits logits' : List Word) (length : logits'.length = logits.length) {step : InferenceStep}
    {t : Evaluation}
    (h : prefillWithPrefix K promptTokens prefixTokens reserve
      ⟨runOps engine (ops.map fun op => (K, op)), logits, []⟩ = (.ok step, t)) :
    ∃ t', prefillWithPrefix K promptTokens prefixTokens reserve ⟨fresh, logits', []⟩ =
      (.ok step, t') ∧ Agreement t t' := by
  have inv := runOps_invariant (build_invariant built) (ops.map fun op => (K, op))
  have retains := runOps_retains (build_invariant built) (build_retains built) (K := K) ops
  have machine := runOps_machine (build_invariant built) (ops.map fun op => (K, op))
  obtain ⟨⟨nonzero, short, bound⟩, held, rest, s', t₀, retained, rfl, same, buffers, resumed, rfl⟩ :=
    prefillWithPrefix_resumption (s := ⟨_, logits, []⟩) inv retains h
  have length' : logits'.length = logitWords := by
    rw [length, ← resumed.logits, buffers]
  obtain ⟨restarted, state, empty⟩ := build_restarted built' (build_machine built built') length'
  have restarted' : Restarted s'.engine ⟨fresh, logits', []⟩ := by
    have there := machine.trans same
    refine ⟨⟨?_, ?_, ?_⟩, restarted.position, restarted.scratch, restarted.logits⟩
    · exact restarted.machine.model.trans there.model.symm
    · exact restarted.machine.backend.trans there.backend.symm
    · exact restarted.machine.dispatcher.trans there.dispatcher.symm
  obtain ⟨f, run, agree⟩ := resumed.fresh restarted' state
  refine ⟨{ f with engine := { f.engine with retainedPrefix := .of (held ++ rest) prefixTokens } },
    ?_, ⟨agree.logits, agree.position, agree.generationReserve, agree.predictionsEmitted,
    agree.state, agree.rows⟩⟩
  unfold prefillWithPrefix
  dsimp only
  rw [if_neg (by omega), if_pos empty]
  unfold prefillRetaining
  rw [bind_ok run, bind_ok (modify_apply _ _)]
  rfl

/-- A prompt that reuses the retained token. -/
theorem prefillWithPrefix_agrees_fresh_retained :
    ∃ step t t', prefillWithPrefix zeroKernels [0, 2] 1 1
          ⟨runOps blankEngine (retainOne.map fun op => (zeroKernels, op)), zeroLogits, []⟩ =
        (.ok step, t) ∧
      prefillWithPrefix zeroKernels [0, 2] 1 1 ⟨blankEngine, zeroLogits, []⟩ = (.ok step, t') ∧
      Agreement t t' := by
  obtain ⟨step, t, run⟩ := retainOne_retains.reuse
  obtain ⟨t', run', agree⟩ := prefillWithPrefix_agrees_fresh build_blank build_blank retainOne
    [0, 2] 1 1 zeroLogits zeroLogits rfl run
  exact ⟨step, t, t', run, run', agree⟩

/-- After any calls, a plain prefill that succeeds ends at the length of its prompt and agrees with
a fresh engine exactly when no retained prefix was left in place. -/
theorem prefill_agrees_fresh_iff
    (built : InferenceEngine.build cpu model kvStorage scratchStorage dispatcher = .ok engine)
    (built' : InferenceEngine.build cpu model kvStorage' scratchStorage' dispatcher = .ok fresh)
    (ops : List EngineOp) (promptTokens : List Token) (reserve : Nat) (logits logits' : List Word)
    (length : logits'.length = logits.length) {step : InferenceStep} {t : Evaluation}
    (h : prefill K promptTokens reserve
      ⟨runOps engine (ops.map fun op => (K, op)), logits, []⟩ = (.ok step, t)) :
    (t.engine.position = promptTokens.length ∧
        ∃ t', prefill K promptTokens reserve ⟨fresh, logits', []⟩ = (.ok step, t') ∧
          Agreement t t') ↔
      (runOps engine (ops.map fun op => (K, op))).position = 0 := by
  have inv := runOps_invariant (build_invariant built) (ops.map fun op => (K, op))
  have machine := runOps_machine (build_invariant built) (ops.map fun op => (K, op))
  have moved : t.engine.position =
      (runOps engine (ops.map fun op => (K, op))).position + promptTokens.length := by
    cases prefill_settles (s := ⟨_, logits, []⟩) inv.scratch h with
    | accepted _ done =>
      rw [done.engine]
      rfl
  constructor
  · rintro ⟨position, _⟩
    omega
  · intro zero
    have resumed := prefill_resumption (s := ⟨_, logits, []⟩) inv zero h
    obtain ⟨restarted, state, _⟩ := build_restarted built' (build_machine built built')
      (length.trans resumed.logits)
    have restarted' : Restarted (runOps engine (ops.map fun op => (K, op))) ⟨fresh, logits', []⟩ :=
      ⟨⟨restarted.machine.model.trans machine.model.symm,
        restarted.machine.backend.trans machine.backend.symm,
        restarted.machine.dispatcher.trans machine.dispatcher.symm⟩,
        restarted.position, restarted.scratch, restarted.logits⟩
    exact ⟨by omega, resumed.fresh restarted' state⟩

/-- A prefill behind the retained token. -/
theorem prefill_agrees_fresh_iff_retained :
    ∃ step t, prefill zeroKernels [0] 1
          ⟨runOps blankEngine (retainOne.map fun op => (zeroKernels, op)), zeroLogits, []⟩ =
        (.ok step, t) ∧
      ((t.engine.position = 1 ∧
          ∃ t', prefill zeroKernels [0] 1 ⟨blankEngine, zeroLogits, []⟩ = (.ok step, t') ∧
            Agreement t t') ↔
        (runOps blankEngine (retainOne.map fun op => (zeroKernels, op))).position = 0) := by
  obtain ⟨step, t, run, _⟩ := retainOne_retains.prefill
  exact ⟨step, t, run, prefill_agrees_fresh_iff build_blank build_blank retainOne [0] 1 zeroLogits
    zeroLogits rfl run⟩

/-- A prefill of one token after a reset to a retained prefix of one token ends at position 2. -/
theorem prefill_depends_on_retained :
    ¬∀ step t, prefill zeroKernels [0] 1
        ⟨runOps blankEngine (retainOne.map fun op => (zeroKernels, op)), zeroLogits, []⟩ =
          (.ok step, t) →
      t.engine.position = [(0 : Token)].length := by
  intro claim
  obtain ⟨step, t, run, position⟩ := retainOne_retains.prefill
  have length := claim step t run
  rw [position] at length
  cases length

end Claims

end Promptboot
