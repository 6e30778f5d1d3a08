import Promptboot.Lib.Buffer
import Promptboot.Target.Session

/-!
# Reading the model file

The load loop of `execute` (`model_target.rs`) with the decisions of `model_contract.rs`. The
firmware answers each `Read` with a status, a size and what it stores in the bytes it was asked for;
it may answer anything.

`ReadReply.Accepted` says which replies the loop takes, and `LoadState.Kept` what holds while it has
taken all of them. `loadTurn_accepts` and `loadTurn_rejects` are the two turns there are, and
`loadLoop_ends` the whole loop. A firmware that `Delivers` a file has all its replies taken
(`loadLoop_delivers`, `probeEnd_delivers`). `loadModel_outcome` is the result for every firmware.
-/

namespace Promptboot

def maxRead : Nat := 1048576

inductive ReadDecision where
  | advance (count : Nat)
  | complete
  | truncated
  | oversized
  | read
  deriving DecidableEq

def readDecision (requested returned status : Nat) (eof : Bool) : ReadDecision :=
  if status ≠ efiSuccess ∨ returned > requested then .read
  else if eof then
    if returned = 0 then .complete else .oversized
  else if returned = 0 then .truncated
  else .advance returned

def checkedReadOffset (offset returned total : Nat) : Option Nat :=
  if offset + returned ≥ 2 ^ 64 then none
  else if offset + returned > total then none
  else some (offset + returned)

/-- `read_failure`, as `Failure::contract` keeps it. -/
def readFailure (decision : ReadDecision) (status : Nat) : Option TargetFailure :=
  let failed (code : String) : Option TargetFailure :=
    some ⟨code, "read", if status = efiSuccess then none else some status, none⟩
  match decision with
  | .truncated => failed "MODEL_TRUNCATED"
  | .oversized => failed "MODEL_OVERSIZED"
  | .read => failed "MODEL_READ"
  | _ => none

structure ReadProgress where
  offset : Nat
  total : Nat

def ReadProgress.apply (progress : ReadProgress) (requested returned status : Nat) (eof : Bool) :
    ReadDecision × ReadProgress :=
  match readDecision requested returned status eof with
  | .advance count =>
    match checkedReadOffset progress.offset count progress.total with
    | some next => (.advance count, { progress with offset := next })
    | none => (.read, progress)
  | decision => (decision, progress)

/-- What `Read` answers; it may store in every byte that it was asked for. -/
structure ReadReply where
  status : Nat
  returned : Nat
  stored : Nat → UInt8

/-- What is in memory while the file is read: `hashed` is what the hash has been given, and `reads`
counts the calls of `Read`. -/
structure LoadState where
  progress : ReadProgress
  weights : Nat → UInt8
  hashed : List UInt8
  reads : Nat

/-- Loading stops with a failure, or panics in `unwrap`. -/
inductive LoadStop where
  | failure (failure : TargetFailure)
  | panic

/-- `read_failure(..).unwrap()` -/
def readFailed (decision : ReadDecision) (status : Nat) : LoadStop :=
  match readFailure decision status with
  | some failure => .failure failure
  | none => .panic

/-- The weights behind a `Read` of `requested` bytes at `offset`. -/
def storeReply (reply : ReadReply) (offset requested : Nat) (weights : Nat → UInt8) : Nat → UInt8 :=
  fun at_ => if offset ≤ at_ ∧ at_ < offset + requested then reply.stored (at_ - offset)
    else weights at_

/-- `&weights[start..start + count]` -/
def weightsFrom (weights : Nat → UInt8) (start count : Nat) : List UInt8 :=
  (List.range count).map fun at_ => weights (start + at_)

/-- A turn of the load loop. -/
def loadTurn (replies : Nat → ReadReply) (s : LoadState) : Except LoadStop Unit × LoadState :=
  let reply := replies s.reads
  let oldOffset := s.progress.offset
  let requested := min maxRead (modelBytes - s.progress.offset)
  let weights := storeReply reply oldOffset requested s.weights
  let (decision, progress) := s.progress.apply requested reply.returned reply.status false
  match decision with
  | .advance count =>
    (.ok (), ⟨progress, weights, s.hashed ++ weightsFrom weights oldOffset count, s.reads + 1⟩)
  | _ => (.error (readFailed decision reply.status), ⟨progress, weights, s.hashed, s.reads + 1⟩)

/-- The load loop, for at most `fuel` turns. -/
def loadLoop (replies : Nat → ReadReply) : Nat → LoadState →
    Option (Except LoadStop Unit × LoadState)
  | fuel, s =>
    if s.progress.offset < modelBytes then
      match fuel with
      | 0 => none
      | fuel + 1 =>
        match loadTurn replies s with
        | (.ok _, t) => loadLoop replies fuel t
        | (.error stop, t) => some (.error stop, t)
    else some (.ok (), s)

/-- The probe for the end of the file, into a byte of its own. -/
def probeEnd (replies : Nat → ReadReply) (s : LoadState) : Except LoadStop Unit × LoadState :=
  let reply := replies s.reads
  let (decision, progress) := s.progress.apply 1 reply.returned reply.status true
  let s := { s with progress, reads := s.reads + 1 }
  if decision = .complete then (.ok (), s) else (.error (readFailed decision reply.status), s)

/-- Loading: the loop, for at most `fuel` turns, and the probe. -/
def loadModel (replies : Nat → ReadReply) (weights : Nat → UInt8) (fuel : Nat) :
    Option (Except LoadStop Unit × LoadState) :=
  (loadLoop replies fuel ⟨⟨0, modelBytes⟩, weights, [], 0⟩).map fun
    | (.ok _, s) => probeEnd replies s
    | (.error stop, s) => (.error stop, s)

section Facts
variable {replies : Nat → ReadReply} {s t : LoadState}

/-- The bytes that the first calls of `Read` have returned. -/
def returnedBy (replies : Nat → ReadReply) (reads : Nat) : Nat :=
  ((List.range reads).map fun read => (replies read).returned).sum

/-- The bytes that the loop asks `Read` for behind `reads` calls. -/
def requestedAt (replies : Nat → ReadReply) (reads : Nat) : Nat :=
  min maxRead (modelBytes - returnedBy replies reads)

/-- `Read` succeeds, and returns one byte at least and no more than it was asked for. -/
structure ReadReply.Accepted (reply : ReadReply) (requested : Nat) : Prop where
  success : reply.status = efiSuccess
  pos : 0 < reply.returned
  within : reply.returned ≤ requested

/-- The first `accepted` reads have been accepted, and what they returned has been hashed in
order. -/
structure LoadState.Kept (replies : Nat → ReadReply) (s : LoadState) (accepted : Nat) : Prop where
  before : ∀ read < accepted, (replies read).Accepted (requestedAt replies read)
  total : s.progress.total = modelBytes
  offset : s.progress.offset = returnedBy replies accepted
  inside : s.progress.offset ≤ modelBytes
  hashed : s.hashed = weightsFrom s.weights 0 s.progress.offset

/-- A further read returns its own bytes more. -/
lemma returnedBy_succ (reads : Nat) :
    returnedBy replies (reads + 1) = returnedBy replies reads + (replies reads).returned := by
  rw [returnedBy, List.range_succ, List.map_append, List.sum_append]
  simp [returnedBy]

/-- Weights in two parts, one behind the other. -/
lemma weightsFrom_add (weights : Nat → UInt8) (m n : Nat) :
    weightsFrom weights 0 (m + n) = weightsFrom weights 0 m ++ weightsFrom weights m n := by
  simp [weightsFrom, List.range_add, Function.comp_def]

/-- What is stored from `offset` on does not touch what lies before it. -/
lemma weightsFrom_storeReply {reply : ReadReply} {offset requested : Nat} {weights : Nat → UInt8} :
    weightsFrom (storeReply reply offset requested weights) 0 offset =
      weightsFrom weights 0 offset := by
  refine List.map_congr_left fun at_ mem => ?_
  have before := List.mem_range.1 mem
  rw [storeReply, if_neg (by omega)]

/-- A reply behind the reads that have been accepted. -/
lemma accepted_succ {reads : Nat}
    (before : ∀ read < reads, (replies read).Accepted (requestedAt replies read))
    (accepted : (replies reads).Accepted (requestedAt replies reads)) :
    ∀ read < reads + 1, (replies read).Accepted (requestedAt replies read) := by
  intro read below
  rcases Nat.lt_succ_iff_lt_or_eq.1 below with earlier | rfl
  · exact before read earlier
  · exact accepted

/-- A decision that is no success has a failure. -/
lemma readFailed_eq {decision : ReadDecision} (status : Nat)
    (rejects : decision = .truncated ∨ decision = .oversized ∨ decision = .read) :
    ∃ failure, readFailed decision status = .failure failure ∧
      readFailure decision status = some failure := by
  rcases rejects with rfl | rfl | rfl <;> exact ⟨_, rfl, rfl⟩

/-- A read within the file is accepted with what it returned. -/
lemma ReadProgress.apply_accepts {progress : ReadProgress} {requested : Nat} {reply : ReadReply}
    (accepted : reply.Accepted requested) (room : progress.offset + requested ≤ progress.total)
    (small : progress.total < 2 ^ 64) :
    progress.apply requested reply.returned reply.status false =
      (.advance reply.returned, { progress with offset := progress.offset + reply.returned }) := by
  have within := accepted.within
  have passes : ¬(reply.status ≠ efiSuccess ∨ reply.returned > requested) :=
    not_or.2 ⟨not_not.2 accepted.success, Nat.not_lt.2 within⟩
  have fits : checkedReadOffset progress.offset reply.returned progress.total =
      some (progress.offset + reply.returned) := by
    rw [checkedReadOffset, if_neg (by omega), if_neg (by omega)]
  unfold apply readDecision
  rw [if_neg passes, if_neg Bool.false_ne_true, if_neg (Nat.ne_of_gt accepted.pos)]
  simp only [fits]

/-- Any other read is rejected, with the decision on what it answered. -/
lemma ReadProgress.apply_rejects {progress : ReadProgress} {requested : Nat} {reply : ReadReply}
    (rejected : ¬reply.Accepted requested) :
    progress.apply requested reply.returned reply.status false =
        (readDecision requested reply.returned reply.status false, progress) ∧
      (readDecision requested reply.returned reply.status false = .truncated ∨
        readDecision requested reply.returned reply.status false = .read) := by
  by_cases failed : reply.status ≠ efiSuccess ∨ reply.returned > requested
  · have decision : readDecision requested reply.returned reply.status false = .read := by
      rw [readDecision, if_pos failed]
    rw [apply, decision]
    exact ⟨rfl, .inr rfl⟩
  · obtain ⟨success, within⟩ := not_or.1 failed
    have none : reply.returned = 0 := by
      by_contra some
      exact rejected ⟨not_not.1 success, Nat.pos_of_ne_zero some, Nat.not_lt.1 within⟩
    have decision : readDecision requested reply.returned reply.status false = .truncated := by
      rw [readDecision, if_neg failed, if_neg Bool.false_ne_true, if_pos none]
    rw [apply, decision]
    exact ⟨rfl, .inl rfl⟩

section Room
variable (kept : s.Kept replies s.reads)
include kept

/-- What a turn requests. -/
lemma LoadState.Kept.requested :
    min maxRead (modelBytes - s.progress.offset) = requestedAt replies s.reads := by
  rw [requestedAt, ← kept.offset]

/-- What a turn requests lies in the file. -/
lemma LoadState.Kept.room (more : s.progress.offset < modelBytes) :
    s.progress.offset + min maxRead (modelBytes - s.progress.offset) ≤ s.progress.total := by
  rw [kept.total]
  omega

/-- An offset in the file is no machine word's overflow. -/
lemma LoadState.Kept.small : s.progress.total < 2 ^ 64 := by
  rw [kept.total]
  decide

/-- The loop stops at the end of the file. -/
lemma LoadState.Kept.full (done : ¬s.progress.offset < modelBytes) :
    s.progress.offset = modelBytes :=
  Nat.le_antisymm kept.inside (Nat.not_lt.1 done)

end Room

/-- A turn accepts one more read, and stores what it answered. -/
lemma loadTurn_accepts (kept : s.Kept replies s.reads) (more : s.progress.offset < modelBytes)
    (accepted : (replies s.reads).Accepted (requestedAt replies s.reads)) :
    ∃ t, loadTurn replies s = (.ok (), t) ∧ t.Kept replies t.reads ∧
      s.progress.offset < t.progress.offset ∧
      t.progress.offset = s.progress.offset + (replies s.reads).returned ∧
      t.weights = storeReply (replies s.reads) s.progress.offset (requestedAt replies s.reads)
        s.weights := by
  have room := kept.room more
  have within := accepted.within
  rw [kept.requested] at room
  have applied := ReadProgress.apply_accepts accepted room kept.small
  have run : loadTurn replies s = (.ok (), (loadTurn replies s).2) := by
    rw [loadTurn, kept.requested, applied]
  refine ⟨_, run, ?_⟩
  rw [loadTurn, kept.requested, applied]
  refine ⟨⟨accepted_succ kept.before accepted, kept.total, ?_, ?_, ?_⟩, ?_, rfl, rfl⟩
  · exact (congrArg (· + _) kept.offset).trans (returnedBy_succ _).symm
  · exact kept.total ▸ (Nat.add_le_add_left within _).trans room
  · dsimp only
    rw [weightsFrom_add, weightsFrom_storeReply, ← kept.hashed]
  · exact Nat.lt_add_of_pos_right accepted.pos

/-- A turn stops with the failure of the read that it rejects. -/
lemma loadTurn_rejects (kept : s.Kept replies s.reads)
    (rejected : ¬(replies s.reads).Accepted (requestedAt replies s.reads)) :
    ∃ failure t, loadTurn replies s = (.error (.failure failure), t) ∧ t.reads = s.reads + 1 ∧
      t.Kept replies s.reads ∧ t.progress.offset = s.progress.offset ∧
      readFailure (readDecision (requestedAt replies s.reads) (replies s.reads).returned
        (replies s.reads).status false) (replies s.reads).status = some failure := by
  obtain ⟨applied, kinds⟩ :=
    (ReadProgress.apply_rejects rejected : s.progress.apply _ _ _ _ = _ ∧ _)
  obtain ⟨failure, failed, found⟩ : ∃ failure,
      readFailed (readDecision (requestedAt replies s.reads) (replies s.reads).returned
          (replies s.reads).status false) (replies s.reads).status = .failure failure ∧
        readFailure (readDecision (requestedAt replies s.reads) (replies s.reads).returned
          (replies s.reads).status false) (replies s.reads).status = some failure :=
    readFailed_eq _ (kinds.imp_right .inr)
  refine ⟨failure, (loadTurn replies s).2, ?_, ?_⟩
  all_goals
    rw [loadTurn, kept.requested, applied]
    rcases kinds with kind | kind <;> rw [kind] at failed found ⊢
  · exact congrArg (fun stop => (Except.error stop, _)) failed
  · exact congrArg (fun stop => (Except.error stop, _)) failed
  all_goals
    exact ⟨rfl, ⟨kept.before, kept.total, kept.offset, kept.inside,
      kept.hashed.trans weightsFrom_storeReply.symm⟩, rfl, found⟩

/-- The loop ends within as many turns as there are bytes left. -/
lemma loadLoop_ends (fuel : Nat) (kept : s.Kept replies s.reads)
    (enough : modelBytes ≤ s.progress.offset + fuel) :
    (∃ t, loadLoop replies fuel s = some (.ok (), t) ∧ t.Kept replies t.reads ∧
      t.progress.offset = modelBytes) ∨
    ∃ failure t accepted, loadLoop replies fuel s = some (.error (.failure failure), t) ∧
      t.reads = accepted + 1 ∧ t.Kept replies accepted ∧ t.progress.offset < modelBytes ∧
      ¬(replies accepted).Accepted (requestedAt replies accepted) ∧
      readFailure (readDecision (requestedAt replies accepted) (replies accepted).returned
        (replies accepted).status false) (replies accepted).status = some failure := by
  induction fuel generalizing s with
  | zero =>
    have done : ¬s.progress.offset < modelBytes := Nat.not_lt.2 enough
    rw [loadLoop, if_neg done]
    exact .inl ⟨s, rfl, kept, kept.full done⟩
  | succ fuel ih =>
    by_cases more : s.progress.offset < modelBytes
    · rw [loadLoop, if_pos more]
      by_cases accepted : (replies s.reads).Accepted (requestedAt replies s.reads)
      · obtain ⟨t, run, kept', further, -⟩ := loadTurn_accepts kept more accepted
        simp only [run]
        exact ih kept' (by omega)
      · obtain ⟨failure, t, run, reads, kept', same, found⟩ := loadTurn_rejects kept accepted
        simp only [run]
        exact .inr ⟨failure, t, s.reads, rfl, reads, kept', same ▸ more, accepted, found⟩
    · rw [loadLoop, if_neg more]
      exact .inl ⟨s, rfl, kept, kept.full more⟩

/-- The probe finds the end of the file, or stops with the failure of what it read. -/
lemma probeEnd_cases (replies : Nat → ReadReply) (s : LoadState) :
    ((probeEnd replies s).2 = { s with reads := s.reads + 1 }) ∧
    (((probeEnd replies s).1 = .ok () ∧ (replies s.reads).status = efiSuccess ∧
        (replies s.reads).returned = 0) ∨
      ∃ failure, (probeEnd replies s).1 = .error (.failure failure) ∧
        ¬((replies s.reads).status = efiSuccess ∧ (replies s.reads).returned = 0) ∧
        readFailure (readDecision 1 (replies s.reads).returned (replies s.reads).status true)
          (replies s.reads).status = some failure) := by
  unfold probeEnd ReadProgress.apply readDecision
  by_cases failed : (replies s.reads).status ≠ efiSuccess ∨ (replies s.reads).returned > 1
  · obtain ⟨failure, stop, found⟩ := readFailed_eq (replies s.reads).status (.inr (.inr rfl))
    have rejected : ¬((replies s.reads).status = efiSuccess ∧ (replies s.reads).returned = 0) := by
      omega
    simp only [if_pos failed, reduceCtorEq, if_false]
    exact ⟨trivial, .inr ⟨failure, congrArg Except.error stop, rejected, found⟩⟩
  · by_cases none : (replies s.reads).returned = 0
    · simp only [if_neg failed, if_pos none, if_true]
      exact ⟨trivial, .inl ⟨trivial, not_not.1 (not_or.1 failed).1, none⟩⟩
    · obtain ⟨failure, stop, found⟩ := readFailed_eq (replies s.reads).status (.inr (.inl rfl))
      simp only [if_neg failed, if_neg none, if_true, reduceCtorEq, if_false]
      exact ⟨trivial, .inr ⟨failure, congrArg Except.error stop, fun ended => none ended.2, found⟩⟩

end Facts

/-- The firmware reads the file as it is, in pieces of its own choice, and then finds its end. -/
structure Delivers (replies : Nat → ReadReply) (file : Buffer) : Prop where
  success : ∀ read, (replies read).status = efiSuccess
  more : ∀ read, returnedBy replies read < file.length → 0 < (replies read).returned ∧
    (replies read).returned ≤ min maxRead (file.length - returnedBy replies read)
  stored : ∀ read, ∀ i < (replies read).returned,
    (replies read).stored i = file.byte (returnedBy replies read + i)
  eof : ∀ read, returnedBy replies read = file.length → (replies read).returned = 0

section Deliver
variable {replies : Nat → ReadReply} {file : Buffer} {s : LoadState}

/-- A file that is delivered is accepted piece by piece. -/
lemma loadTurn_delivers (delivers : Delivers replies file) (length : file.length = modelBytes)
    (kept : s.Kept replies s.reads) (more : s.progress.offset < modelBytes)
    (agrees : ∀ i < s.progress.offset, s.weights i = file.byte i) :
    ∃ t, loadTurn replies s = (.ok (), t) ∧ t.Kept replies t.reads ∧
      s.progress.offset < t.progress.offset ∧
      ∀ i < t.progress.offset, t.weights i = file.byte i := by
  have offset := kept.offset
  obtain ⟨pos, le⟩ := delivers.more s.reads (by omega)
  rw [length] at le
  obtain ⟨t, run, kept', further, offset', weights⟩ :=
    loadTurn_accepts kept more ⟨delivers.success s.reads, pos, le⟩
  refine ⟨t, run, kept', further, fun i below => ?_⟩
  rw [weights]
  -- what the earlier reads stored, and then what this one did
  by_cases before : i < s.progress.offset
  · rw [storeReply, if_neg (by omega)]
    exact agrees i before
  · have inside : i < s.progress.offset + requestedAt replies s.reads :=
      (offset' ▸ below).trans_le (Nat.add_le_add_left le _)
    rw [storeReply, if_pos ⟨Nat.not_lt.1 before, inside⟩,
      delivers.stored s.reads _ (by omega), ← offset]
    congr 1
    omega

/-- The whole file is loaded. -/
lemma loadLoop_delivers (delivers : Delivers replies file) (length : file.length = modelBytes)
    (fuel : Nat) (kept : s.Kept replies s.reads)
    (agrees : ∀ i < s.progress.offset, s.weights i = file.byte i)
    (enough : modelBytes ≤ s.progress.offset + fuel) :
    ∃ t, loadLoop replies fuel s = some (.ok (), t) ∧ t.Kept replies t.reads ∧
      t.progress.offset = modelBytes ∧ ∀ i < modelBytes, t.weights i = file.byte i := by
  induction fuel generalizing s with
  | zero =>
    have done : ¬s.progress.offset < modelBytes := Nat.not_lt.2 enough
    have full := kept.full done
    rw [loadLoop, if_neg done]
    exact ⟨s, rfl, kept, full, full ▸ agrees⟩
  | succ fuel ih =>
    by_cases more : s.progress.offset < modelBytes
    · obtain ⟨t, run, kept', further, agrees'⟩ :=
        loadTurn_delivers delivers length kept more agrees
      rw [loadLoop, if_pos more, run]
      exact ih kept' agrees' (by omega)
    · have full := kept.full more
      rw [loadLoop, if_neg more]
      exact ⟨s, rfl, kept, full, full ▸ agrees⟩

/-- The probe finds the end of the file. -/
lemma probeEnd_delivers (delivers : Delivers replies file) (length : file.length = modelBytes)
    (kept : s.Kept replies s.reads) (full : s.progress.offset = modelBytes) :
    probeEnd replies s = (.ok (), { s with reads := s.reads + 1 }) := by
  have none := delivers.eof s.reads (by rw [← kept.offset, full, length])
  have quiet : ¬((replies s.reads).status ≠ efiSuccess ∨ (replies s.reads).returned > 1) :=
    not_or.2 ⟨not_not.2 (delivers.success s.reads), by omega⟩
  unfold probeEnd ReadProgress.apply readDecision
  simp only [if_neg quiet, if_pos none, if_true]

end Deliver

/-- A firmware that returns whatever it is asked for. -/
def inChunks (file : Buffer) (read : Nat) : ReadReply :=
  ⟨efiSuccess, min maxRead (modelBytes - maxRead * read), fun i => file.byte (maxRead * read + i)⟩

/-- Its first reads return as many whole chunks, up to the end. -/
lemma returnedBy_inChunks (file : Buffer) (reads : Nat) :
    returnedBy (inChunks file) reads = min (maxRead * reads) modelBytes := by
  induction reads with
  | zero => rfl
  | succ reads ih =>
    rw [returnedBy_succ, ih, inChunks]
    dsimp only
    rw [Nat.mul_succ]
    omega

/-- It delivers the file. -/
lemma inChunks_delivers {file : Buffer} (length : file.length = modelBytes) :
    Delivers (inChunks file) file where
  success _ := rfl
  more read left := by
    rw [returnedBy_inChunks, length] at *
    have chunk : 0 < maxRead := by decide
    exact ⟨by dsimp only [inChunks]; omega, by dsimp only [inChunks]; omega⟩
  stored read i below := by
    have inside : maxRead * read ≤ modelBytes := by
      dsimp only [inChunks] at below
      omega
    rw [returnedBy_inChunks, Nat.min_eq_left inside]
    rfl
  eof read full := by
    rw [returnedBy_inChunks, length] at full
    dsimp only [inChunks]
    omega

/-- What the last read is decided to be: it was the probe if all bytes have been returned. -/
def lastDecision (replies : Nat → ReadReply) (accepted : Nat) : ReadDecision :=
  if returnedBy replies accepted < modelBytes then
    readDecision (requestedAt replies accepted) (replies accepted).returned
      (replies accepted).status false
  else readDecision 1 (replies accepted).returned (replies accepted).status true

/-- What loading promises of its result and of what is then in memory. Of the reads all but the last
have been accepted; the last is the probe that finds the end, or it has been rejected. -/
def LoadOutcome (replies : Nat → ReadReply) (result : Except LoadStop Unit) (s : LoadState) :
    Prop :=
  ∃ accepted, s.reads = accepted + 1 ∧
    (∀ read < accepted, (replies read).Accepted (requestedAt replies read)) ∧
    s.progress.offset = returnedBy replies accepted ∧
    s.hashed = weightsFrom s.weights 0 s.progress.offset ∧
    match result with
    | .ok _ => s.progress.offset = modelBytes ∧
        (replies accepted).status = efiSuccess ∧ (replies accepted).returned = 0
    | .error (.failure failure) => lastDecision replies accepted ≠ .complete ∧
        (∀ count, lastDecision replies accepted ≠ .advance count) ∧
        readFailure (lastDecision replies accepted) (replies accepted).status = some failure
    | .error .panic => False

/-- A failure is that of a decision which neither accepts nor finds the end. -/
lemma rejects_of_failure {decision : ReadDecision} {status : Nat} {failure : TargetFailure}
    (found : readFailure decision status = some failure) :
    decision ≠ .complete ∧ ∀ count, decision ≠ .advance count := by
  constructor
  · rintro rfl
    cases found
  · rintro count rfl
    cases found

/-- Whatever the firmware answers, loading ends within as many turns as the file has bytes. On
success the weights have been hashed, each byte once and in order; a failure is that of the first
read that was rejected, behind those whose bytes have been hashed. A file that the firmware
delivers is loaded. -/
theorem loadModel_outcome (replies : Nat → ReadReply) (weights : Nat → UInt8) (more : Nat) :
    (∃ result s, loadModel replies weights (modelBytes + more) = some (result, s) ∧
      LoadOutcome replies result s) ∧
    ∀ file : Buffer, file.length = modelBytes → Delivers replies file →
      ∃ s, loadModel replies weights (modelBytes + more) = some (.ok (), s) ∧
        ∀ i < modelBytes, s.weights i = file.byte i := by
  have start : LoadState.Kept replies ⟨⟨0, modelBytes⟩, weights, [], 0⟩ 0 :=
    ⟨fun _ below => absurd below (Nat.not_lt_zero _), rfl, rfl, Nat.zero_le _, rfl⟩
  constructor
  · rcases loadLoop_ends (modelBytes + more) start (by simp) with
      ⟨t, run, kept, full⟩ | ⟨failure, t, accepted, run, reads, kept, before, -, found⟩
    · obtain ⟨same, ends⟩ := probeEnd_cases replies t
      have last : lastDecision replies t.reads =
          readDecision 1 (replies t.reads).returned (replies t.reads).status true := by
        rw [lastDecision, if_neg (by rw [← kept.offset, full]; exact Nat.lt_irrefl _)]
      refine ⟨(probeEnd replies t).1, (probeEnd replies t).2, by rw [loadModel, run]; rfl, ?_⟩
      rw [same]
      refine ⟨t.reads, rfl, kept.before, kept.offset, kept.hashed, ?_⟩
      rcases ends with ⟨ended, success, none⟩ | ⟨failure, stop, -, found⟩
      · rw [ended]
        exact ⟨full, success, none⟩
      · rw [stop]
        rw [← last] at found
        obtain ⟨complete, advance⟩ := rejects_of_failure found
        exact ⟨complete, advance, found⟩
    · have last : lastDecision replies accepted =
          readDecision (requestedAt replies accepted) (replies accepted).returned
            (replies accepted).status false := by
        rw [lastDecision, if_pos (kept.offset ▸ before)]
      rw [loadModel, run]
      rw [← last] at found
      obtain ⟨complete, advance⟩ := rejects_of_failure found
      exact ⟨_, _, rfl, accepted, reads, kept.before, kept.offset, kept.hashed, complete, advance,
        found⟩
  · intro file length delivers
    obtain ⟨t, run, kept, full, agrees⟩ := loadLoop_delivers delivers length (modelBytes + more)
      start (fun i below => absurd below (Nat.not_lt_zero i)) (by simp)
    refine ⟨{ t with reads := t.reads + 1 }, ?_, agrees⟩
    rw [loadModel, run]
    exact congrArg some (probeEnd_delivers delivers length kept full)

/-- A file of counting bytes, read in chunks of the largest size. -/
theorem loadModel_outcome_inChunks :
    ∃ s, loadModel (inChunks ⟨modelBytes, UInt8.ofNat⟩) (fun _ => 0) (modelBytes + 0) =
        some (.ok (), s) ∧ ∀ i < modelBytes, s.weights i = UInt8.ofNat i :=
  (loadModel_outcome _ _ 0).2 ⟨modelBytes, UInt8.ofNat⟩ rfl (inChunks_delivers rfl)

end Promptboot
