import Promptboot.Engine.EvaluateAgree
import Promptboot.Engine.Invariant

/-!
# The rows a cache holds

`replay` evaluates tokens from the start of the context without asking for logits. A cache `Holds`
tokens when its rows are those a replay computes, on whatever storage: the meaning of "these tokens
were evaluated into these rows" that does not mention how they came there. Evaluations extend what
is held by their token (`evaluateAll_holds`), and writes above it do not disturb it.

`evaluateAll_agrees` takes two caches that hold the same tokens to the same outcome, and
`SameRows.of_replay` is where the replay comes in. The headline `evaluateAll_holds` needs nothing of
the storage that the tokens were first evaluated on.
-/

namespace Promptboot
open Fallible

variable {K : Kernels}

def replay (K : Kernels) (tokens : List Token) : EngineM Unit :=
  tokens.forM fun token => evaluate K token false

/-- An evaluation at the start of the context, on the machine of `engine` but on any storage. -/
structure Restarted (engine : InferenceEngine) (s : Evaluation) : Prop where
  machine : SameMachine engine s.engine
  position : s.engine.position = 0
  scratch : s.engine.scratch = .zero
  logits : s.logits.length = logitWords

def InferenceEngine.Holds (K : Kernels) (engine : InferenceEngine) (tokens : List Token) : Prop :=
  ∀ s, Restarted engine s → ∃ t, replay K tokens s = (.ok (), t) ∧
    ∀ c : KvCoord, c.position.val < tokens.length → engine.kv c.word = t.engine.kv c.word

/-- Every engine holds the empty prompt. -/
lemma InferenceEngine.holds_nil (engine : InferenceEngine) : engine.Holds K [] :=
  fun s _ => ⟨s, rfl, fun _ h => absurd h (Nat.not_lt_zero _)⟩

/-- What a cache holds depends on the machine and on the rows below the length only. -/
lemma InferenceEngine.Holds.congr {e f : InferenceEngine} {tokens : List Token}
    (h : e.Holds K tokens) (machine : SameMachine e f)
    (kv : ∀ c : KvCoord, c.position.val < tokens.length → f.kv c.word = e.kv c.word) :
    f.Holds K tokens := by
  intro s hs
  obtain ⟨t, run, rows⟩ := h s ⟨machine.trans hs.machine, hs.position, hs.scratch, hs.logits⟩
  exact ⟨t, run, fun c hc => (kv c hc).trans (rows c hc)⟩

/-- Loops over a concatenation run one after the other. -/
lemma forM_append {α : Type} {f : α → EngineM PUnit} (l m : List α) :
    (l ++ m).forM f = (l.forM f >>= fun _ => m.forM f) := by
  funext s
  induction l generalizing s with
  | nil => rfl
  | cons a l ih =>
    rw [List.cons_append, forM_cons, forM_cons, bind_apply, bind_apply, bind_apply]
    rcases f a s with ⟨_ | _, t⟩
    · rfl
    · exact ih t

/-- A prefix of what a cache holds is held. -/
lemma InferenceEngine.Holds.append_left {e : InferenceEngine} {ts us : List Token}
    (h : e.Holds K (ts ++ us)) (context : (ts ++ us).length ≤ contextLimit) : e.Holds K ts := by
  intro s hs
  obtain ⟨u, run, rows⟩ := h s hs
  unfold replay at run
  rw [forM_append] at run
  obtain ⟨_, t, first, rest⟩ := bind_eq_ok run
  refine ⟨t, first, ?_⟩
  rw [List.length_append] at context
  have room : s.engine.position + ts.length ≤ contextLimit := by
    rw [hs.position]
    omega
  intro c hc
  rw [rows c (by rw [List.length_append]; omega)]
  rcases evaluateAll_spec hs.scratch room first with ⟨_, moved, clear⟩ | ⟨_, _, bad, _⟩
  · have position : t.engine.position = ts.length := by
      rw [moved.position, hs.position, Nat.zero_add]
    rcases evaluateAll_spec clear (by rw [position]; omega) rest with ⟨_, after, _⟩ | ⟨_, _, bad, _⟩
    · exact after.kv c (by omega)
    · cases bad
  · cases bad

/-- The logits computation leaves the cache alone. -/
lemma evaluateOutput_kv {coordinator : TokenCoordinator} {produceLogits : Bool}
    {kv : Nat → Word} :
    Keeps (fun s => s.engine.kv = kv) (fun _ => True)
      (evaluateOutput K coordinator produceLogits) := by
  cases produceLogits
  · exact Keeps.pure
  unfold evaluateOutput evaluateLogits
  rw [if_pos rfl]
  repeat first
    | refine Keeps.bind ?_ fun _ => ?_
    | exact Keeps.modify fun _ h => h
    | exact Keeps.lift fun _ _ _ _ => trivial

/-- A token evaluated for its logits is evaluated without them to the same rows. -/
lemma evaluate_without_logits {token : Token} {produceLogits : Bool} {s t : Evaluation}
    (h : evaluate K token produceLogits s = (.ok (), t)) :
    ∃ t', evaluate K token false s = (.ok (), t') ∧ t'.engine.kv = t.engine.kv := by
  rw [evaluate_eq] at h ⊢
  split at h
  · rename_i dispatches
    rw [if_pos dispatches]
    unfold evaluateInner at h ⊢
    obtain ⟨n, u, body, finish⟩ := bind_eq_ok h
    unfold evaluateBody at body
    obtain ⟨_, s₁, h₁, body⟩ := bind_eq_ok body
    obtain ⟨_, s₂, h₂, body⟩ := bind_eq_ok body
    obtain ⟨m, s₃, h₃, body⟩ := bind_eq_ok body
    obtain ⟨_, s₄, h₄, last⟩ := bind_eq_ok body
    have output : Keeps (fun r => r.engine.kv = s₃.engine.kv) (fun _ => True)
      (evaluateOutput K s.engine.coordinator produceLogits) := evaluateOutput_kv
    have kv := (output s₃ rfl).1
    rw [h₄] at kv
    have silent : evaluateBody K token false s.engine.coordinator s = (.ok m, s₃) := by
      unfold evaluateBody
      rw [bind_ok h₁, bind_ok h₂, bind_ok h₃]
      rfl
    rw [bind_ok silent]
    refine ⟨_, rfl, ?_⟩
    cases last
    cases finish
    exact kv.symm
  · cases h

/-- What evaluating from two like states leaves in common, for a loop of evaluations. -/
lemma evaluateAll_agrees {β : Type} {token : β → Token} {produceLogits : β → Bool} {l : List β}
    {s t : Evaluation} (h : SameRows s t) (scratch : s.engine.scratch = .zero)
    (context : s.engine.position + l.length ≤ contextLimit) :
    let run := l.forM (fun b => evaluate K (token b) (produceLogits b))
    (run s).1 = (run t).1 ∧ ((run s).1 = .ok () → SameRows (run s).2 (run t).2) := by
  induction l generalizing s t with
  | nil => exact ⟨rfl, fun _ => h⟩
  | cons b l ih =>
    have room : s.engine.position + (l.length + 1) ≤ contextLimit := context
    obtain ⟨e, ok⟩ := evaluate_agrees (K := K) (token b) (produceLogits b) h (by omega)
    dsimp only
    rw [forM_cons]
    rcases hs : evaluate K (token b) (produceLogits b) s with ⟨err | _, s'⟩ <;>
      rcases ht : evaluate K (token b) (produceLogits b) t with ⟨err' | _, t'⟩ <;>
      rw [hs, ht] at e ok <;> cases e
    · rw [bind_error hs, bind_error ht]
      exact ⟨rfl, nofun⟩
    · rw [bind_ok hs, bind_ok ht]
      rcases evaluate_spec (by omega) hs with ⟨_, moved⟩ | ⟨_, bad, _⟩
      · have clear : s'.engine.scratch = .zero := by rw [moved.engine]
        have position : s'.engine.position = s.engine.position + 1 := by rw [moved.engine]
        exact ih (ok rfl).1 clear (by omega)
      · cases bad

/-- The state that a replay reaches looks like an engine that holds what it replayed. -/
lemma SameRows.of_replay {engine : InferenceEngine} {tokens : List Token} {s t u : Evaluation}
    (restarted : Restarted engine s) (run : replay K tokens s = (.ok (), t))
    (rows : ∀ c : KvCoord, c.position.val < tokens.length → engine.kv c.word = t.engine.kv c.word)
    (hu : u.engine = engine) (position : engine.position = tokens.length)
    (scratch : engine.scratch = .zero) (context : tokens.length ≤ contextLimit)
    (logits : u.logits.length = logitWords) : SameRows u t := by
  subst hu
  have room : s.engine.position + tokens.length ≤ contextLimit := by
    rw [restarted.position]
    omega
  rcases evaluateAll_spec restarted.scratch room run with ⟨_, moved, clear⟩ | ⟨_, _, bad, _⟩
  · refine ⟨?_, ?_, ?_, ?_, ?_, ⟨logits, ?_⟩, ?_⟩
    · rw [moved.engine]
      exact restarted.machine.model.symm
    · rw [moved.engine]
      exact restarted.machine.backend.symm
    · rw [moved.engine]
      exact restarted.machine.dispatcher.symm
    · rw [moved.position, restarted.position, position, Nat.zero_add]
    · rw [scratch, clear]
    · rw [moved.logits, restarted.logits]
    · intro c hc
      exact rows c (by omega)
  · cases bad

/-- A finished evaluation extends what the cache holds by its token. -/
lemma InferenceEngine.Holds.evaluate {tokens : List Token} {token : Token} {produceLogits : Bool}
    {s t : Evaluation} (h : s.engine.Holds K tokens) (position : s.engine.position = tokens.length)
    (scratch : s.engine.scratch = .zero) (logits : s.logits.length = logitWords)
    (context : tokens.length < contextLimit)
    (run : Promptboot.evaluate K token produceLogits s = (.ok (), t)) :
    t.engine.Holds K (tokens ++ [token]) := by
  have moved : Evaluated s t := by
    rcases evaluate_spec (by omega) run with ⟨_, moved⟩ | ⟨_, bad, _⟩
    · exact moved
    · cases bad
  intro r hr
  have restarted : Restarted s.engine r :=
    ⟨moved.advanced.machine.trans hr.machine, hr.position, hr.scratch, hr.logits⟩
  obtain ⟨u, replayed, rows⟩ := h r restarted
  have same := SameRows.of_replay restarted replayed rows rfl position scratch (by omega) logits
  obtain ⟨e, ok⟩ := evaluate_agrees (K := K) token produceLogits same (by omega)
  rw [run] at e ok
  rcases hv : Promptboot.evaluate K token produceLogits u with ⟨_ | _, v⟩ <;> rw [hv] at e ok <;>
    cases e
  obtain ⟨w, silent, kv⟩ := evaluate_without_logits hv
  refine ⟨w, ?_, ?_⟩
  · unfold replay at replayed ⊢
    rw [forM_append, bind_ok replayed, forM_cons, bind_ok silent]
    rfl
  · intro c hc
    rw [List.length_append, List.length_singleton] at hc
    rw [kv]
    exact (ok rfl).1.kv c (by rw [moved.engine]; dsimp only; omega)

/-- A finished loop of evaluations extends what the cache holds by its tokens. -/
lemma evaluateAll_holds {β : Type} {token : β → Token} {produceLogits : β → Bool} {l : List β}
    {tokens : List Token} {s t : Evaluation} (h : s.engine.Holds K tokens)
    (position : s.engine.position = tokens.length) (scratch : s.engine.scratch = .zero)
    (logits : s.logits.length = logitWords) (context : tokens.length + l.length ≤ contextLimit)
    (run : l.forM (fun b => evaluate K (token b) (produceLogits b)) s = (.ok (), t)) :
    t.engine.Holds K (tokens ++ l.map token) := by
  induction l generalizing s tokens with
  | nil =>
    cases run
    rwa [List.map_nil, List.append_nil]
  | cons b l ih =>
    rw [List.length_cons] at context
    rw [forM_cons] at run
    obtain ⟨_, u, first, rest⟩ := bind_eq_ok run
    have moved : Evaluated s u := by
      rcases evaluate_spec (by omega) first with ⟨_, moved⟩ | ⟨_, bad, _⟩
      · exact moved
      · cases bad
    have next := h.evaluate position scratch logits (by omega) first
    have step := ih next (by rw [moved.engine, List.length_append]; simpa using position)
      (by rw [moved.engine]) (by rw [moved.logits, logits])
      (by rw [List.length_append, List.length_singleton]; omega) rest
    rwa [List.append_assoc, List.singleton_append, ← List.map_cons] at step

/-- Only the last token of a prompt is asked for its logits. -/
lemma evaluatePrompt_concat (init : List Token) (last : Token) :
    evaluatePrompt K (init ++ [last]) = (replay K init >>= fun _ => evaluate K last true) := by
  -- the turns in front of the last evaluate without a head
  have silent : ∀ (f : Token × Nat → EngineM Unit),
      (∀ token index, index < init.length → f (token, index) = evaluate K token false) →
      ∀ (l : List Token) (k : Nat), k + l.length = init.length →
        (l.zipIdx k).forM f = replay K l := by
    intro f turn l
    induction l with
    | nil => exact fun _ _ => rfl
    | cons token l ih =>
      intro k hk
      rw [List.length_cons] at hk
      rw [List.zipIdx_cons, forM_cons, ih (k + 1) (by omega), turn token k (by omega)]
      rfl
  have flag : ∀ index < init.length, (index + 1 == (init ++ [last]).length) = false := by
    intro index lt
    rw [List.length_append, List.length_singleton, beq_eq_false_iff_ne]
    omega
  unfold evaluatePrompt
  rw [List.zipIdx_append, forM_append,
    silent _ (fun token index lt => congrArg (evaluate K token) (flag index lt)) init 0
      (Nat.zero_add _)]
  congr 1
  funext _ s
  rw [Nat.zero_add, List.zipIdx_cons, forM_cons, bind_apply]
  simp only [List.length_append, List.length_singleton, beq_self_eq_true]
  rcases evaluate K last true s with ⟨_ | _, t⟩ <;> rfl

/-- A prompt is evaluated by replaying its first part and then evaluating the rest. -/
lemma evaluatePrompt_append {ts us : List Token} (h : us ≠ []) :
    evaluatePrompt K (ts ++ us) = (replay K ts >>= fun _ => evaluatePrompt K us) := by
  obtain ⟨init, last, rfl⟩ := List.eq_nil_or_concat' us |>.resolve_left h
  rw [← List.append_assoc, evaluatePrompt_concat, evaluatePrompt_concat]
  unfold replay
  rw [forM_append]
  funext s
  rw [bind_apply, bind_apply, bind_apply]
  rcases ts.forM (fun token => evaluate K token false) s with ⟨_ | _, t⟩ <;> rfl

/-- Like states give a prompt one outcome and the same logits. -/
lemma evaluatePrompt_agrees {promptTokens : List Token} {s t : Evaluation} (h : SameRows s t)
    (nonempty : promptTokens ≠ []) (scratch : s.engine.scratch = .zero)
    (context : s.engine.position + promptTokens.length ≤ contextLimit) :
    (evaluatePrompt K promptTokens s).1 = (evaluatePrompt K promptTokens t).1 ∧
      ((evaluatePrompt K promptTokens s).1 = .ok () →
        SameRows (evaluatePrompt K promptTokens s).2 (evaluatePrompt K promptTokens t).2 ∧
          (evaluatePrompt K promptTokens s).2.logits =
            (evaluatePrompt K promptTokens t).2.logits) := by
  obtain ⟨init, last, rfl⟩ := List.eq_nil_or_concat' promptTokens |>.resolve_left nonempty
  rw [List.length_append, List.length_singleton] at context
  rw [evaluatePrompt_concat]
  have silent : (replay K init s).1 = (replay K init t).1 ∧
      ((replay K init s).1 = .ok () → SameRows (replay K init s).2 (replay K init t).2) :=
    evaluateAll_agrees h scratch (by omega)
  obtain ⟨e, ok⟩ := silent
  rcases hs : replay K init s with ⟨err | _, s'⟩ <;>
    rcases ht : replay K init t with ⟨err' | _, t'⟩ <;>
    rw [hs, ht] at e ok <;> cases e
  · rw [bind_error hs, bind_error ht]
    exact ⟨rfl, nofun⟩
  · rw [bind_ok hs, bind_ok ht]
    have position : s'.engine.position = s.engine.position + init.length := by
      rcases evaluateAll_spec scratch (by omega) hs with ⟨_, moved, _⟩ | ⟨_, _, bad, _⟩
      · exact moved.position
      · cases bad
    have same : SameRows s' t' := ok rfl
    obtain ⟨e, last⟩ := evaluate_agrees (K := K) last true same (by omega)
    exact ⟨e, fun h => ⟨(last h).1, (last h).2 rfl⟩⟩

end Promptboot
