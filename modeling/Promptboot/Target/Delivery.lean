import Promptboot.Target.Verify
import Promptboot.Tools.PackRoundTrip

/-!
# Delivering the model

From the host's source to the view that the target computes with: the packed file, whatever medium
it comes from and in whatever pieces the firmware reads it, the digest and the container's checks.

The helpers `loadVerified_outcome` and `loadVerified_delivers` are the load for any firmware and for
one that delivers; `opens_in_memory` takes what the loaded bytes open as to the packed file. The
headline `model_delivered` puts them together with the packing.
-/

namespace Promptboot
open Gguf Pack

/-- Two byte strings of one length with one digest. -/
structure Collision (a b : List UInt8) : Prop where
  differ : a ≠ b
  length : a.length = b.length
  digest : Fips180.sha256 a = Fips180.sha256 b

section Verify
variable {cpu : Processor} {expectedShaHex : List UInt8} {address : Nat} {reports : Reports}
  {replies : Nat → ReadReply} {weights : Nat → UInt8}

/-- The state in front of the first read. -/
abbrev HashedLoad.start (weights : Nat → UInt8) : HashedLoad :=
  ⟨⟨⟨0, modelBytes⟩, weights, [], 0⟩, Sha256.new⟩

/-- A new load follows its hasher. -/
lemma start_follows : (HashedLoad.start weights).Follows cpu := ⟨[], rfl, rfl⟩

/-- A new load has read nothing. -/
lemma start_kept : (HashedLoad.start weights).load.Kept replies 0 :=
  ⟨fun _ below => absurd below (Nat.not_lt_zero _), rfl, rfl, Nat.zero_le _, rfl⟩

/-- Whatever the firmware answers, verifying ends, and not with a panic; it ends with a view only
where the digest of what is in memory is the expected one. -/
lemma loadVerified_outcome (executes : Sha256.Executes cpu) (more : Nat) :
    ∃ outcome s, loadVerified cpu reports expectedShaHex address replies weights
        (modelBytes + more) = some (outcome, s) ∧
      VerifyOutcome cpu expectedShaHex address s.load.weights outcome := by
  have enough : modelBytes ≤ 0 + (modelBytes + more) := by omega
  rcases loadLoop_ends (modelBytes + more) start_kept enough with
    ⟨t, run, kept, full⟩ | ⟨failure, t, _, run, _⟩
  · obtain ⟨hasher, hashed, follows⟩ := hashedLoop_load (start_follows) run
    have follows := follows rfl
    obtain ⟨same, ends⟩ := probeEnd_cases replies t
    rw [loadVerified, hashed]
    rcases ends with ⟨ended, _⟩ | ⟨failure, stopped, _⟩
    · have probe : probeEnd replies t = (.ok (), { t with reads := t.reads + 1 }) :=
        Prod.ext ended same
      simp only [Option.map_some, probe]
      have finish := follows.finish executes (full ▸ kept.hashed)
      exact ⟨_, _, rfl, verifyLoaded_outcome reports finish⟩
    · have probe : probeEnd replies t =
          (.error (.failure failure), { t with reads := t.reads + 1 }) := Prod.ext stopped same
      simp only [Option.map_some, probe]
      exact ⟨_, _, rfl, .stopped⟩
  · obtain ⟨hasher, hashed, _⟩ := hashedLoop_load (start_follows) run
    rw [loadVerified, hashed]
    exact ⟨_, _, rfl, .stopped⟩

/-- A file that is delivered is in memory when it is verified. -/
lemma loadVerified_delivers {file : Buffer} (executes : Sha256.Executes cpu) (more : Nat)
    (delivers : Delivers replies file) (length : file.length = modelBytes)
    (loaded : reports.loaded = .ok ()) (verified : reports.verified = .ok ()) :
    ∃ s, loadVerified cpu reports expectedShaHex address replies weights (modelBytes + more) =
        some (verifyModel cpu expectedShaHex address s, s) ∧
      (∀ i < modelBytes, s.load.weights i = file.byte i) ∧
      (s.hasher.finish cpu).toList = Fips180.sha256 (file.slice 0 modelBytes) := by
  have enough : modelBytes ≤ 0 + (modelBytes + more) := by omega
  obtain ⟨t, run, kept, full, agrees⟩ := loadLoop_delivers delivers length (modelBytes + more)
    start_kept (fun i below => absurd below (Nat.not_lt_zero i)) enough
  obtain ⟨hasher, hashed, follows⟩ := hashedLoop_load start_follows run
  have finish := (follows rfl).finish executes (full ▸ kept.hashed)
  have slice : weightsFrom t.weights 0 modelBytes = file.slice 0 modelBytes :=
    Buffer.slice_congr (b := ⟨modelBytes, t.weights⟩) (Nat.le_of_eq (Nat.zero_add _)) agrees
  have probe := probeEnd_delivers delivers length kept full
  refine ⟨⟨{ t with reads := t.reads + 1 }, hasher⟩, ?_, agrees, finish.trans (by rw [slice])⟩
  rw [loadVerified, hashed]
  simp only [Option.map_some, probe]
  rw [verifyLoaded_reported loaded verified]

end Verify

section Deliver
variable {host target : Processor} {source : Source} {gguf : GgufFile} {v : Vocabulary}
  {small : Sections} {file : Buffer} {weights : Nat → UInt8}

/-- What the target opens of a packed file in its memory. -/
lemma opens_in_memory (executes : Sha256.Executes host) (executes' : Sha256.Executes target)
    (parsed : Parsed (Sha256.digest host) gguf) (of : v.Of gguf.metadata)
    (sections : SectionsOf v small) (packed : PackedFile source gguf.tensors small file)
    (types : FrozenTypes v.types) (merges : FrozenMerges v)
    (brace : v.template.toList.head? = some '{') (block : Nat)
    (same : ∀ i < modelBytes, weights i = file.byte i) :
    ∃ view, Opening.openAuthenticated (Sha256.digest target) (64 * block) ⟨modelBytes, weights⟩ =
        .ok view ∧ GivesBack source gguf v view := by
  obtain ⟨rest, brace⟩ := brace_first brace
  have inside : PackedFile source gguf.tensors small ⟨modelBytes, weights⟩ := packed.agree rfl same
  rw [Sha256.digest_congr executes' executes]
  obtain ⟨opened, gives, -⟩ := packed_opens parsed of sections inside types merges brace block
  exact ⟨_, opened, gives⟩

/-- Memory that holds the file's bytes. -/
lemma weights_of_slice (same : weightsFrom weights 0 modelBytes = file.slice 0 modelBytes) :
    ∀ i < modelBytes, weights i = file.byte i := by
  intro i below
  have at_i := congrArg (fun bytes => bytes[i]?) same
  simpa [weightsFrom, Buffer.slice, below] using at_i

end Deliver

/-- A host that packs a source and a target with the packed file's digest built into it. The hash
instructions of either processor, if it has them, do what they are published to do. -/
structure TargetBuild where
  host : Processor
  target : Processor
  hostExecutes : Sha256.Executes host
  targetExecutes : Sha256.Executes target
  run : PackRun (Sha256.digest host)
  expectedShaHex : List UInt8
  expected : (parseSha expectedShaHex).toList = Fips180.sha256 (run.after.file.slice 0 modelBytes)

/-- Whatever the firmware answers, loading ends, and not with a panic. If it ends with a view, the
view gives the source back, or two byte strings with one digest have been found; if it ends with a
model's error, what has been read was not the packed file. A file that is delivered ends with a view
if the two records of the load are emitted. -/
theorem model_delivered (build : TargetBuild) (reports : Reports) (block : Nat)
    (replies : Nat → ReadReply) (weights : Nat → UInt8) (more : Nat) :
    ∃ outcome s, loadVerified build.target reports build.expectedShaHex (64 * block) replies weights
        (modelBytes + more) = some (outcome, s) ∧
      outcome ≠ .error .panic ∧
      (∀ view, outcome = .ok view → GivesBack build.run.source build.run.gguf build.run.v view ∨
        Collision (build.run.after.file.slice 0 modelBytes)
          (weightsFrom s.load.weights 0 modelBytes)) ∧
      (∀ failure error, outcome = .error (.failure failure (some error)) →
        weightsFrom s.load.weights 0 modelBytes ≠ build.run.after.file.slice 0 modelBytes) ∧
      (Delivers replies build.run.after.file → reports.loaded = .ok () →
        reports.verified = .ok () →
        ∃ view, outcome = .ok view ∧
          GivesBack build.run.source build.run.gguf build.run.v view) := by
  obtain ⟨host, target, executes, executes', ⟨source, gguf, stop, before, after, v, read, packed, of,
    types, merges, brace⟩, expectedShaHex, expected⟩ := build
  dsimp only at expected ⊢
  obtain ⟨small, parsed, sections, file⟩ := packed_file read packed of
  have opens {weights : Nat → UInt8} (same : ∀ i < modelBytes, weights i = after.file.byte i) :=
    opens_in_memory executes executes' parsed of sections file types merges brace block same
  obtain ⟨outcome, s, run, ends⟩ : ∃ outcome s, loadVerified target reports expectedShaHex
      (64 * block) replies weights (modelBytes + more) = some (outcome, s) ∧
        VerifyOutcome target expectedShaHex (64 * block) s.load.weights outcome :=
    loadVerified_outcome executes' more
  refine ⟨outcome, s, run, ?_, ?_, ?_, ?_⟩
  case refine_1 =>
    rintro rfl
    cases ends
  case refine_2 =>
    rintro view rfl
    cases ends with
    | verified same opened =>
      -- the digest is that of the packed file, but the bytes need not be
      by_cases equal : weightsFrom s.load.weights 0 modelBytes = after.file.slice 0 modelBytes
      · obtain ⟨other, opened', gives⟩ := opens (weights_of_slice equal)
        rw [opened] at opened'
        cases opened'
        exact .inl gives
      · exact .inr ⟨Ne.symm equal, by simp [weightsFrom], (same.trans expected).symm⟩
  case refine_3 =>
    intro failure error failed equal
    -- of the packed file neither the digest nor the container is rejected
    have digest : Fips180.sha256 (weightsFrom s.load.weights 0 modelBytes) =
        (parseSha expectedShaHex).toList := by rw [equal, expected]
    obtain ⟨view, opened, _⟩ := opens (weights_of_slice equal)
    subst failed
    cases ends with
    | checksum differ => exact differ digest
    | identity same opened' =>
      rw [opened] at opened'
      cases opened'
  case refine_4 =>
    intro delivers loaded verified
    obtain ⟨s', run', agrees, finish⟩ :=
      loadVerified_delivers executes' more delivers file.length loaded verified
    obtain ⟨view, opened, gives⟩ := opens agrees
    rw [verifyModel_ok (finish.trans expected.symm) opened, run] at run'
    cases run'
    exact ⟨view, rfl, gives⟩

end Promptboot
