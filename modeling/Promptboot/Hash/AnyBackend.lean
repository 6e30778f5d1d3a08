import Promptboot.Hash.ShaNi
import Promptboot.Hash.Streaming

/-!
# The hash on any processor

Whatever backend a processor settles on, the hasher comes to the standard's digest, if its extension
executes the instructions as they are defined.

The helpers `keepTail_plain`, `updateWhole_plain` and their like say that one member's result is the
`plain` one's, the scalar backend's, up to the backend recorded. `update_plain` and `finish_plain`
put them together, `updates_finish` is the standard's digest for any split of the input, and the
headline `digest_congr` says that two processors come to one digest.
-/

namespace Promptboot.Sha256

/-- The processor has the extension's instructions, or does not say that it has. -/
def Executes (cpu : Processor) : Prop :=
  shaNiAvailable cpu = true → cpu.sha256Rounds = promptbootSha256Rounds

/-- `digest` of the core crate. -/
def digest (cpu : Processor) (input : List UInt8) : Vector UInt8 32 :=
  (new.update cpu input).finish cpu

/-- The same hasher on the scalar backend. -/
def plain (h : Sha256) : Sha256 := { h with backend := .scalar }

/-- An extension that has been chosen is there. -/
def Chosen (cpu : Processor) (h : Sha256) : Prop :=
  h.backend = .shaNi → shaNiAvailable cpu = true

/-- A new hasher has not chosen another backend. -/
lemma chosen_new (cpu : Processor) : Chosen cpu new := fun other => by cases other

/-- With its published instructions the SHA backend compresses as the scalar one does. -/
lemma shaNi_eq_scalar {cpu : Processor} (executes : cpu.sha256Rounds = promptbootSha256Rounds)
    (state : Vector UInt32 8) (schedule : Vector UInt32 64) :
    compressShaNi cpu state schedule = compressScalar state schedule := by
  have loop := foldl_quadRound schedule (startRegisters state) (Nat.le_refl 16)
  rw [compressShaNi, ← roundWords, executes]
  simp only [promptbootSha256Rounds, loadState_eq, Prod.mk.eta, loop]
  rw [storeState_packed, compressScalar_eq]

/-- The hasher with the input's length counted. -/
def counted (h : Sha256) (input : List UInt8) : Sha256 :=
  { h with bytes := h.bytes + UInt64.ofNat input.length }

/-- The buffered bytes with the head of the input behind them. -/
def joined (h : Sha256) (input : List UInt8) : Vector UInt8 64 :=
  copyFromSlice h.block h.used (input.take (min (64 - h.used) input.length))

/-- The hasher when its full buffer goes to `compress`. -/
def emptied (h : Sha256) (input : List UInt8) : Sha256 :=
  { h.counted input with
    block := h.joined input
    used := 0
    used_lt := Nat.zero_lt_of_lt h.used_lt }

/-- The hasher with the whole input in its buffer. -/
def buffered (h : Sha256) (input : List UInt8)
    (room : ¬h.used + min (64 - h.used) input.length = 64) : Sha256 :=
  { h.counted input with
    block := h.joined input
    used := h.used + min (64 - h.used) input.length
    used_lt := by have := h.used_lt; omega }

/-- The buffer with the mark and zeros to its end. -/
def spilled (h : Sha256) : Vector UInt8 64 :=
  copyFromSlice (h.block.setIfInBounds h.used 0x80) (h.used + 1)
    (List.replicate (64 - (h.used + 1)) 0)

/-- The last block, where mark and length fit behind the buffered bytes. -/
def padded (h : Sha256) : Vector UInt8 64 :=
  copyFromSlice
    (copyFromSlice (h.block.setIfInBounds h.used 0x80) (h.used + 1)
      (List.replicate (56 - (h.used + 1)) 0))
    56 (toBeBytes 8 (h.bytes * 8).toNat).toList

/-- Only the backend matters. -/
lemma Chosen.of_backend {cpu : Processor} {h : Sha256} (chosen : Chosen cpu h)
    (state : Vector UInt32 8) (block : Vector UInt8 64) (used : Nat) (bytes : UInt64)
    (used_lt : used < 64) : Chosen cpu ⟨state, block, used, bytes, h.backend, used_lt⟩ :=
  chosen

section Parts
variable {cpu : Processor} {h : Sha256}

/-- Keeping a tail does not depend on the backend. -/
lemma keepTail_plain {g : Sha256} {input other : List UInt8} (short : input.length < 64)
    (short' : other.length < 64) (same : plain h = g) (rest : input = other)
    (chosen : Chosen cpu h) :
    plain (h.keepTail input short) = g.keepTail other short' ∧
      Chosen cpu (h.keepTail input short) := by
  subst same rest
  refine ⟨rfl, ?_⟩
  unfold keepTail
  exact chosen.of_backend _ _ _ _ _

/-- `update` with nothing in the buffer. -/
lemma update_whole (empty : ¬h.used ≠ 0) (input : List UInt8) :
    h.update cpu input = updateWhole cpu (h.counted input) input := by
  unfold update
  exact if_neg empty

/-- `update` where the head of the input fills the buffer. -/
lemma update_fills (held : h.used ≠ 0) (input : List UInt8)
    (full : h.used + min (64 - h.used) input.length = 64) :
    h.update cpu input =
      updateWhole cpu ((h.emptied input).compress cpu (h.joined input))
        (input.drop (min (64 - h.used) input.length)) := by
  unfold update
  exact (if_pos held).trans (dif_pos full)

/-- `update` where the input goes behind the buffered bytes. -/
lemma update_buffers (held : h.used ≠ 0) (input : List UInt8)
    (room : ¬h.used + min (64 - h.used) input.length = 64) :
    h.update cpu input = h.buffered input room := by
  unfold update
  exact (if_pos held).trans (dif_neg room)

/-- `finish` where the length needs a block of its own. -/
lemma finish_spills (full : h.used + 1 > 56) :
    h.finish cpu =
      ((((h.compress cpu h.spilled).compress cpu
        (copyFromSlice (Vector.replicate 64 0) 56
          (toBeBytes 8 (h.bytes * 8).toNat).toList)).state).map
            fun word => toBeBytes 4 word.toNat).flatten := by
  unfold finish
  simp only [if_pos full]
  rfl

/-- `finish` where mark and length go into the same block. -/
lemma finish_fits (room : ¬h.used + 1 > 56) :
    h.finish cpu =
      ((h.compress cpu h.padded).state.map fun word => toBeBytes 4 word.toNat).flatten := by
  unfold finish
  simp only [if_neg room]
  rfl

end Parts

section Plain
variable {cpu : Processor} {h : Sha256} (executes : Executes cpu) (cpu' : Processor)
include executes

/-- A block is compressed alike on every backend. -/
lemma compress_plain (chosen : Chosen cpu h) (block : Vector UInt8 64) :
    plain (h.compress cpu block) = (plain h).compress cpu' block ∧
      Chosen cpu (h.compress cpu block) := by
  have right : (plain h).compress cpu' block =
      { plain h with state := compressScalar h.state (messageSchedule block) } :=
    compress_eq rfl block
  rw [right]
  have shaNi (available : shaNiAvailable cpu = true) (resolved : resolve cpu h.backend = .shaNi) :
      plain (h.compress cpu block) =
        { plain h with state := compressScalar h.state (messageSchedule block) } := by
    rw [compress, resolved]
    dsimp only
    rw [shaNi_eq_scalar (executes available)]
    rfl
  have scalar (resolved : resolve cpu h.backend = .scalar) :
      plain (h.compress cpu block) =
          { plain h with state := compressScalar h.state (messageSchedule block) } ∧
        Chosen cpu (h.compress cpu block) := by
    rw [compress, resolved]
    exact ⟨rfl, fun other => by cases other⟩
  -- the backend is settled by the first block; one that was chosen before is kept
  rcases backend : h.backend with _ | _ | _
  · by_cases available : shaNiAvailable cpu = true
    · exact ⟨shaNi available (by rw [backend, resolve, if_pos available]), fun _ => available⟩
    · exact scalar (by rw [backend, resolve, if_neg available])
  · exact scalar (by rw [backend]; rfl)
  · exact ⟨shaNi (chosen backend) (by rw [backend]; rfl), fun _ => chosen backend⟩

/-- Whole blocks are compressed alike on every backend. -/
lemma compressWhole_plain (chosen : Chosen cpu h) (input : List UInt8) :
    plain (compressWhole cpu h input).1 = (compressWhole cpu' (plain h) input).1 ∧
      (compressWhole cpu h input).2 = (compressWhole cpu' (plain h) input).2 ∧
      Chosen cpu (compressWhole cpu h input).1 := by
  induction h, input using compressWhole.induct cpu with
  | case1 h input whole block =>
    rename_i ih
    obtain ⟨same, kept⟩ := compress_plain executes cpu' chosen block
    rw [same] at ih
    rw [compressWhole, if_pos whole, compressWhole.eq_1 cpu' (plain h), if_pos whole]
    exact ih kept
  | case2 h input short =>
    rw [compressWhole, if_neg short, compressWhole.eq_1 cpu' (plain h), if_neg short]
    exact ⟨rfl, rfl, chosen⟩

/-- An update on a block boundary is alike on every backend. -/
lemma updateWhole_plain (chosen : Chosen cpu h) (input : List UInt8) :
    plain (updateWhole cpu h input) = updateWhole cpu' (plain h) input ∧
      Chosen cpu (updateWhole cpu h input) := by
  obtain ⟨same, rest, kept⟩ := compressWhole_plain executes cpu' chosen input
  unfold updateWhole
  exact keepTail_plain _ _ same rest kept

/-- An update is alike on every backend. -/
lemma update_plain (chosen : Chosen cpu h) (input : List UInt8) :
    plain (h.update cpu input) = (plain h).update cpu' input ∧ Chosen cpu (h.update cpu input) := by
  by_cases held : h.used ≠ 0
  · by_cases full : h.used + min (64 - h.used) input.length = 64
    · have emptied : Chosen cpu (h.emptied input) := chosen.of_backend _ _ _ _ _
      obtain ⟨same, kept⟩ := compress_plain executes cpu' emptied (h.joined input)
      have run := updateWhole_plain executes cpu' kept (input.drop (min (64 - h.used) input.length))
      rw [same] at run
      rw [update_fills held input full, update_fills (h := plain h) held input full]
      exact run
    · rw [update_buffers held input full, update_buffers (h := plain h) held input full]
      exact ⟨rfl, chosen.of_backend _ _ _ _ _⟩
  · have counted : Chosen cpu (h.counted input) := chosen.of_backend _ _ _ _ _
    rw [update_whole held, update_whole (h := plain h) held]
    exact updateWhole_plain executes cpu' counted input

/-- Updates one after another are alike on every backend. -/
lemma updates_plain (chosen : Chosen cpu h) (chunks : List (List UInt8)) :
    plain (chunks.foldl (update cpu) h) = chunks.foldl (update cpu') (plain h) ∧
      Chosen cpu (chunks.foldl (update cpu) h) := by
  induction chunks generalizing h with
  | nil => exact ⟨rfl, chosen⟩
  | cons chunk chunks ih =>
    obtain ⟨same, kept⟩ := update_plain executes cpu' chosen chunk
    rw [List.foldl_cons, List.foldl_cons, ← same]
    exact ih kept

/-- The state behind a block is alike on every backend. -/
lemma state_plain (chosen : Chosen cpu h) (block : Vector UInt8 64) :
    (h.compress cpu block).state = ((plain h).compress cpu' block).state := by
  rw [← (compress_plain executes cpu' chosen block).1]
  rfl

/-- The digest is alike on every backend. -/
lemma finish_plain (chosen : Chosen cpu h) : h.finish cpu = (plain h).finish cpu' := by
  by_cases full : h.used + 1 > 56
  · obtain ⟨same, kept⟩ := compress_plain executes cpu' chosen h.spilled
    rw [finish_spills full, finish_spills (h := plain h) full, state_plain executes cpu' kept, same]
    rfl
  · rw [finish_fits full, finish_fits (h := plain h) full, state_plain executes cpu' chosen]
    rfl

end Plain

/-- Chunk after chunk of a message. -/
lemma holds_updates {cpu : Processor} {h : Sha256} {message : List UInt8}
    (holds : Holds cpu h message) (chunks : List (List UInt8)) :
    Holds cpu (chunks.foldl (update cpu) h) (message ++ chunks.flatten) := by
  induction chunks generalizing h message with
  | nil => simpa using holds
  | cons chunk chunks ih =>
    rw [List.flatten_cons, ← List.append_assoc]
    exact ih (update_holds holds chunk)

/-- The digest of a message fed in any chunks, on any processor. -/
lemma updates_finish {cpu : Processor} (executes : Executes cpu) (chunks : List (List UInt8))
    (short : chunks.flatten.length < 2 ^ 61) :
    ((chunks.foldl (update cpu) new).finish cpu).toList = Fips180.sha256 chunks.flatten := by
  obtain ⟨same, kept⟩ := updates_plain executes cpu (chosen_new cpu) chunks
  rw [finish_plain executes cpu kept, same]
  exact finish_eq (holds_updates (holds_new rfl) chunks) short

/-- Two processors come to one digest. -/
lemma digest_congr {cpu cpu' : Processor} (executes : Executes cpu) (executes' : Executes cpu') :
    digest cpu = digest cpu' := by
  funext input
  obtain ⟨same, kept⟩ := update_plain executes cpu (chosen_new cpu) input
  obtain ⟨same', kept'⟩ := update_plain executes' cpu (chosen_new cpu') input
  rw [digest, digest, finish_plain executes cpu kept, finish_plain executes' cpu kept', same, same']

end Promptboot.Sha256
