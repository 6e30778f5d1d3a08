import Promptboot.Hash.AnyBackend
import Promptboot.Model.OpenTokens
import Promptboot.Target.Load

/-!
# Verifying the model

`execute` (`model_target.rs`) from the first read to `open_authenticated`: every read goes into the
hash as it comes in, and nothing of the file is looked at before the digest is the expected one. The
timer and the records between the steps are what they come to.

`HashedLoad.Follows` is the invariant of the hashed loop: its hasher has been given the bytes that
the load has stored. `hashedTurn_ok` and `hashedTurn_error` are one turn, `hashedLoop_load` the
induction, and `verifyModel_outcome` and `verifyLoaded_outcome` what becomes of the digest and of
the container behind it.
-/

namespace Promptboot

/-- `hex_digit` -/
def hexDigit (byte : UInt8) : UInt8 :=
  if 0x30 ≤ byte ∧ byte ≤ 0x39 then byte - 0x30
  else if 0x61 ≤ byte ∧ byte ≤ 0x66 then byte - 0x61 + 10
  else if 0x41 ≤ byte ∧ byte ≤ 0x46 then byte - 0x41 + 10
  else 0xff

/-- `parse_sha`, of a text of at least 64 bytes. -/
def parseSha (value : List UInt8) : Vector UInt8 32 :=
  Vector.ofFn fun index =>
    let high := hexDigit (value.getD (index * 2) 0)
    let low := hexDigit (value.getD (index * 2 + 1) 0)
    high <<< 4 ||| low

/-- `full_hash_mismatch` -/
def fullHashMismatch (expected actual : Vector UInt8 32) : Option ModelError :=
  Opening.digestMismatch .fullHash .header 0 0 expected.toList actual .digestByte

/-- The kinds of `ContractFailureKind` that verifying has. -/
inductive ContractFailureKind where
  | modelChecksum
  | modelIdentity

/-- `classified_model_failure`, but for the model's error. -/
def classifiedModelFailure : ContractFailureKind → TargetFailure
  | .modelChecksum => .simple "MODEL_CHECKSUM" "verify"
  | .modelIdentity => .simple "MODEL_IDENTITY" "verify"

/-- How the model is not verified: a failure with the model's error in it, if it has one, or a
panic. -/
inductive VerifyStop where
  | failure (failure : TargetFailure) (model : Option ModelError)
  | panic

def VerifyStop.ofLoad : LoadStop → VerifyStop
  | .failure found => .failure found none
  | .panic => .panic

/-- What the timer and the records come to, behind the reads and behind the verification. -/
structure Reports where
  loaded : Except TargetFailure Unit
  verified : Except TargetFailure Unit

/-- The load with the hash beside it. -/
structure HashedLoad where
  load : LoadState
  hasher : Sha256

/-- A turn of the load loop, with `model_sha256.update` in it. -/
def hashedTurn (cpu : Processor) (replies : Nat → ReadReply) (s : HashedLoad) :
    Except LoadStop Unit × HashedLoad :=
  match loadTurn replies s.load with
  | (.ok _, t) =>
    let oldOffset := s.load.progress.offset
    let count := (replies s.load.reads).returned
    (.ok (), ⟨t, s.hasher.update cpu (weightsFrom t.weights oldOffset count)⟩)
  | (.error stop, t) => (.error stop, ⟨t, s.hasher⟩)

/-- The load loop, for at most `fuel` turns. -/
def hashedLoop (cpu : Processor) (replies : Nat → ReadReply) : Nat → HashedLoad →
    Option (Except LoadStop Unit × HashedLoad)
  | fuel, s =>
    if s.load.progress.offset < modelBytes then
      match fuel with
      | 0 => none
      | fuel + 1 =>
        match hashedTurn cpu replies s with
        | (.ok _, t) => hashedLoop cpu replies fuel t
        | (.error stop, t) => some (.error stop, t)
    else some (.ok (), s)

/-- Behind the reads: the digest, and the container. -/
def verifyModel (cpu : Processor) (expectedShaHex : List UInt8) (address : Nat) (s : HashedLoad) :
    Except VerifyStop Opening.OpenedView :=
  match fullHashMismatch (parseSha expectedShaHex) (s.hasher.finish cpu) with
  | some error => .error (.failure (classifiedModelFailure .modelChecksum) (some error))
  | none =>
    match Opening.openAuthenticated (Sha256.digest cpu) address ⟨modelBytes, s.load.weights⟩ with
    | .ok model => .ok model
    | .error (.error error) =>
      .error (.failure (classifiedModelFailure .modelIdentity) (some error))
    | .error .fault => .error .panic

/-- The reports of the target stop it like anything else. -/
def report (reported : Except TargetFailure Unit) : Except VerifyStop Unit :=
  match reported with
  | .ok _ => .ok ()
  | .error failure => .error (.failure failure none)

/-- Behind the last read. -/
def verifyLoaded (cpu : Processor) (reports : Reports) (expectedShaHex : List UInt8) (address : Nat)
    (s : HashedLoad) : Except VerifyStop Opening.OpenedView := do
  report reports.loaded
  let model ← verifyModel cpu expectedShaHex address s
  report reports.verified
  return model

/-- What `execute` does between the last region and the tokenizer. -/
def loadVerified (cpu : Processor) (reports : Reports) (expectedShaHex : List UInt8) (address : Nat)
    (replies : Nat → ReadReply) (weights : Nat → UInt8) (fuel : Nat) :
    Option (Except VerifyStop Opening.OpenedView × HashedLoad) :=
  (hashedLoop cpu replies fuel ⟨⟨⟨0, modelBytes⟩, weights, [], 0⟩, Sha256.new⟩).map fun
    | (.error stop, s) => (.error (.ofLoad stop), s)
    | (.ok _, s) =>
      match probeEnd replies s.load with
      | (.error stop, t) => (.error (.ofLoad stop), ⟨t, s.hasher⟩)
      | (.ok _, t) =>
        (verifyLoaded cpu reports expectedShaHex address ⟨t, s.hasher⟩, ⟨t, s.hasher⟩)

/-- The hash has been given, chunk by chunk, what has been loaded. -/
def HashedLoad.Follows (cpu : Processor) (s : HashedLoad) : Prop :=
  ∃ chunks : List (List UInt8), s.hasher = chunks.foldl (Sha256.update cpu) Sha256.new ∧
    chunks.flatten = s.load.hashed

section Facts
variable {cpu : Processor} {replies : Nat → ReadReply}

/-- A turn that goes on has hashed what it read. -/
lemma loadTurn_hashed {s t : LoadState} {u : Unit} (h : loadTurn replies s = (.ok u, t)) :
    t.hashed =
      s.hashed ++ weightsFrom t.weights s.progress.offset (replies s.reads).returned := by
  unfold loadTurn ReadProgress.apply readDecision at h
  by_cases failed : (replies s.reads).status ≠ efiSuccess ∨
      (replies s.reads).returned > min maxRead (modelBytes - s.progress.offset)
  · simp only [if_pos failed] at h
    cases h
  · by_cases none : (replies s.reads).returned = 0
    · simp only [if_neg failed, if_pos none, Bool.false_eq_true, if_false] at h
      cases h
    · simp only [if_neg failed, if_neg none, Bool.false_eq_true, if_false] at h
      cases next : checkedReadOffset s.progress.offset (replies s.reads).returned
        s.progress.total with
      | none =>
        simp only [next] at h
        cases h
      | some offset =>
        simp only [next] at h
        cases h
        rfl

/-- A turn that succeeds hashes what it read. -/
lemma hashedTurn_ok {s : HashedLoad} {t : LoadState} {u : Unit} (follows : s.Follows cpu)
    (h : loadTurn replies s.load = (.ok u, t)) :
    ∃ hasher, hashedTurn cpu replies s = (.ok (), ⟨t, hasher⟩) ∧
      HashedLoad.Follows cpu ⟨t, hasher⟩ := by
  obtain ⟨chunks, hasher, hashed⟩ := follows
  refine ⟨_, by rw [hashedTurn, h], chunks ++ [weightsFrom t.weights s.load.progress.offset
    (replies s.load.reads).returned], ?_, ?_⟩
  · rw [List.foldl_append, ← hasher]
    rfl
  · rw [List.flatten_append, List.flatten_singleton, hashed]
    exact (loadTurn_hashed h).symm

/-- A turn that stops hashes nothing. -/
lemma hashedTurn_error {s : HashedLoad} {t : LoadState} {stop : LoadStop}
    (h : loadTurn replies s.load = (.error stop, t)) :
    hashedTurn cpu replies s = (.error stop, ⟨t, s.hasher⟩) := by
  rw [hashedTurn, h]

/-- The hash does not change how the load goes, and follows it to its end. -/
lemma hashedLoop_load {fuel : Nat} {s : HashedLoad} {t : LoadState} {result : Except LoadStop Unit}
    (follows : s.Follows cpu) (h : loadLoop replies fuel s.load = some (result, t)) :
    ∃ hasher, hashedLoop cpu replies fuel s = some (result, ⟨t, hasher⟩) ∧
      (result = .ok () → HashedLoad.Follows cpu ⟨t, hasher⟩) := by
  induction fuel generalizing s with
  | zero =>
    by_cases more : s.load.progress.offset < modelBytes
    · rw [loadLoop, if_pos more] at h
      cases h
    · rw [loadLoop, if_neg more] at h
      cases h
      rw [hashedLoop, if_neg more]
      exact ⟨s.hasher, rfl, fun _ => follows⟩
  | succ fuel ih =>
    by_cases more : s.load.progress.offset < modelBytes
    · rw [loadLoop, if_pos more] at h
      rw [hashedLoop, if_pos more]
      rcases turn : loadTurn replies s.load with ⟨stop | u, next⟩
      · rw [turn] at h
        cases h
        rw [hashedTurn_error turn]
        exact ⟨s.hasher, rfl, fun done => by cases done⟩
      · rw [turn] at h
        obtain ⟨hasher, run, kept⟩ := hashedTurn_ok follows turn
        rw [run]
        exact ih kept h
    · rw [loadLoop, if_neg more] at h
      cases h
      rw [hashedLoop, if_neg more]
      exact ⟨s.hasher, rfl, fun _ => follows⟩

/-- The digest of a whole load. -/
lemma HashedLoad.Follows.finish {t : LoadState} {hasher : Sha256} (executes : Sha256.Executes cpu)
    (follows : HashedLoad.Follows cpu ⟨t, hasher⟩)
    (whole : t.hashed = weightsFrom t.weights 0 modelBytes) :
    (hasher.finish cpu).toList = Fips180.sha256 (weightsFrom t.weights 0 modelBytes) := by
  obtain ⟨chunks, built, hashed⟩ := follows
  have hashed : chunks.flatten = t.hashed := hashed
  have built : hasher = chunks.foldl (Sha256.update cpu) Sha256.new := built
  have length : chunks.flatten.length = modelBytes := by
    rw [hashed, whole]
    simp [weightsFrom]
  have short : chunks.flatten.length < 2 ^ 61 := by
    rw [length]
    decide
  rw [built, Sha256.updates_finish executes chunks short, hashed, whole]

/-- There is a mismatch where the digests differ. -/
lemma fullHashMismatch_eq_none {expected actual : Vector UInt8 32} :
    fullHashMismatch expected actual = none ↔ expected = actual := by
  unfold fullHashMismatch Opening.digestMismatch
  rw [List.findSome?_eq_none_iff]
  constructor
  · intro same
    refine Vector.ext fun i lt => ?_
    have at_i := same ⟨i, lt⟩ (List.mem_finRange _)
    by_contra differ
    rw [if_pos] at at_i
    · cases at_i
    · simpa [lt] using differ
  · rintro rfl i -
    exact if_neg (by simp)

end Facts

/-- How verifying ends, for what is then in memory. -/
inductive VerifyOutcome (cpu : Processor) (expectedShaHex : List UInt8) (address : Nat)
    (weights : Nat → UInt8) : Except VerifyStop Opening.OpenedView → Prop where
  | verified {model : Opening.OpenedView}
    (same : Fips180.sha256 (weightsFrom weights 0 modelBytes) = (parseSha expectedShaHex).toList)
    (opened : Opening.openAuthenticated (Sha256.digest cpu) address ⟨modelBytes, weights⟩ =
      .ok model) :
    VerifyOutcome cpu expectedShaHex address weights (.ok model)
  | stopped {failure : TargetFailure} :
    VerifyOutcome cpu expectedShaHex address weights (.error (.failure failure none))
  | checksum {error : ModelError}
    (differ : Fips180.sha256 (weightsFrom weights 0 modelBytes) ≠ (parseSha expectedShaHex).toList) :
    VerifyOutcome cpu expectedShaHex address weights
      (.error (.failure (classifiedModelFailure .modelChecksum) (some error)))
  | identity {error : ModelError}
    (same : Fips180.sha256 (weightsFrom weights 0 modelBytes) = (parseSha expectedShaHex).toList)
    (opened : Opening.openAuthenticated (Sha256.digest cpu) address ⟨modelBytes, weights⟩ =
      .error (.error error)) :
    VerifyOutcome cpu expectedShaHex address weights
      (.error (.failure (classifiedModelFailure .modelIdentity) (some error)))

section Outcome
variable {cpu : Processor} {expectedShaHex : List UInt8} {address : Nat}

/-- Opening does not panic. -/
lemma noPanic_openAuthenticated {sha : List UInt8 → Vector UInt8 32} {bytes : Buffer} :
    Opening.NoPanic (Opening.openAuthenticated sha address bytes) := by
  refine Opening.NoPanic.bind Opening.noPanic_openDirectories fun sections opened => ?_
  obtain ⟨rfl, facts⟩ := Opening.openDirectories_facts opened
  exact Opening.NoPanic.bind (Opening.noPanic_validateTokenizer facts.length)
    fun _ _ => Opening.NoPanic.pure

/-- The digest decides whether the container is looked at. -/
lemma verifyModel_outcome {t : LoadState} {hasher : Sha256}
    (finish : (hasher.finish cpu).toList =
      Fips180.sha256 (weightsFrom t.weights 0 modelBytes)) :
    VerifyOutcome cpu expectedShaHex address t.weights
      (verifyModel cpu expectedShaHex address ⟨t, hasher⟩) := by
  unfold verifyModel
  dsimp only
  cases mismatch : fullHashMismatch (parseSha expectedShaHex) (hasher.finish cpu) with
  | some error =>
    refine .checksum fun same => ?_
    have equal : parseSha expectedShaHex = hasher.finish cpu :=
      Vector.toList_inj.1 (same.symm.trans finish.symm)
    rw [fullHashMismatch_eq_none.2 equal] at mismatch
    cases mismatch
  | none =>
    have same : Fips180.sha256 (weightsFrom t.weights 0 modelBytes) =
        (parseSha expectedShaHex).toList := by
      rw [fullHashMismatch_eq_none.1 mismatch, finish]
    cases opened : Opening.openAuthenticated (Sha256.digest cpu) address
      ⟨modelBytes, t.weights⟩ with
    | ok model => exact .verified same opened
    | error stop =>
      cases stop with
      | error error => exact .identity same opened
      | fault => exact absurd opened noPanic_openAuthenticated

/-- A model with the expected digest that opens is verified. -/
lemma verifyModel_ok {s : HashedLoad} {model : Opening.OpenedView}
    (digest : (s.hasher.finish cpu).toList = (parseSha expectedShaHex).toList)
    (opened : Opening.openAuthenticated (Sha256.digest cpu) address ⟨modelBytes, s.load.weights⟩ =
      .ok model) :
    verifyModel cpu expectedShaHex address s = .ok model := by
  have equal : parseSha expectedShaHex = s.hasher.finish cpu := Vector.toList_inj.1 digest.symm
  unfold verifyModel
  rw [fullHashMismatch_eq_none.2 equal, opened]

/-- The verification ends as it should for what was loaded. -/
lemma verifyLoaded_outcome {t : LoadState} {hasher : Sha256} (reports : Reports)
    (finish : (hasher.finish cpu).toList =
      Fips180.sha256 (weightsFrom t.weights 0 modelBytes)) :
    VerifyOutcome cpu expectedShaHex address t.weights
      (verifyLoaded cpu reports expectedShaHex address ⟨t, hasher⟩) := by
  obtain ⟨loaded, verified⟩ := reports
  have outcome : VerifyOutcome cpu expectedShaHex address t.weights
    (verifyModel cpu expectedShaHex address ⟨t, hasher⟩) := verifyModel_outcome finish
  unfold verifyLoaded
  generalize verifyModel cpu expectedShaHex address ⟨t, hasher⟩ = ended at outcome ⊢
  rcases loaded with failure | _
  · exact .stopped
  rcases ended with stop | model
  · exact outcome
  rcases verified with failure | _
  · exact .stopped
  · exact outcome

/-- Where the reports succeed, the model's verification decides. -/
lemma verifyLoaded_reported {s : HashedLoad} {reports : Reports} (loaded : reports.loaded = .ok ())
    (verified : reports.verified = .ok ()) :
    verifyLoaded cpu reports expectedShaHex address s =
      verifyModel cpu expectedShaHex address s := by
  unfold verifyLoaded
  rw [loaded, verified]
  cases verifyModel cpu expectedShaHex address s with
  | error stop => rfl
  | ok model => rfl

end Outcome

end Promptboot
