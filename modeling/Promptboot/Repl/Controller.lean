import Promptboot.Engine.Operations
import Promptboot.Lib.Fallible
import Promptboot.Repl.Console
import Promptboot.Tokenizer.Render

/-!
# The controller of the session

The state of `model_repl.rs` between two keys and the calls that leave it: the console, the record
sink, the status row, the timer, the keyboard and the sampler. What these answer is read off a
`World`, one answer a call, so a statement about every world is one about every course of the
session. The controller keeps what the history depends on; the buffers for logits, traces and
records are filled before they are read within a turn, and the rest is only shown.

`outside` is the one place where the world is asked: it takes the next answer and moves the clock
on. The calls of the console and of the record sink (`writeText`, `emitRecord`) only differ in the
error they turn an answer into.
-/

namespace Promptboot
namespace Repl
open Fallible

def generationReserve : Nat := 1024
def promptLimit : Nat := contextLimit - 1
def efiDeviceError : Nat := 0x8000000000000007

/-- Why a turn failed. -/
structure TurnError where
  code : String
  phase : String
  recoverable : Bool
  generated : Nat
  visible : Bool
  model : Option ModelError
  inference : Option InferenceError
  efi : Option Nat
  reported : Bool

namespace TurnError

def ofModel (code phase : String) (error : ModelError) : TurnError :=
  ⟨code, phase, true, 0, false, some error, none, none, false⟩

def ofInference (code phase : String) (error : InferenceError) : TurnError :=
  ⟨code, phase, true, 0, false, none, some error, none, false⟩

def utf (code : String) : TurnError := ⟨code, "utf8", true, 0, false, none, none, none, false⟩

def ofEfi (code phase : String) (status : Nat) : TurnError :=
  ⟨code, phase, false, 0, false, none, none, some status, false⟩

def simple (code phase : String) (recoverable : Bool) : TurnError :=
  ⟨code, phase, recoverable, 0, false, none, none, none, false⟩

/-- `after_selected`: the token that failed counts as generated. -/
def afterSelected (error : TurnError) (completedTokens visibleTokens : Nat) : TurnError :=
  { error with generated := min (completedTokens + 1) (2 ^ 32 - 1), visible := visibleTokens != 0 }

end TurnError

/-- What ends the session. -/
structure Failure where
  code : String
  phase : String
  efi : Option Nat
  model : Option ModelError
  inference : Option InferenceError

namespace Failure

def simple (code phase : String) : Failure := ⟨code, phase, none, none, none⟩

def ofEfi (code phase : String) (status : Nat) : Failure := ⟨code, phase, some status, none, none⟩

/-- The failure of a turn that cannot be recovered from: its first cause. -/
def ofTurn (error : TurnError) : Failure :=
  if error.efi.isSome then ⟨error.code, error.phase, error.efi, none, none⟩
  else if error.model.isSome then ⟨error.code, error.phase, none, error.model, none⟩
  else ⟨error.code, error.phase, none, none, error.inference⟩

end Failure

/-- The answers from outside by the number of calls made so far, and the tokens that the sampler has
answered with. -/
structure World where
  clock : Nat
  interrupt : Nat → Except String Bool
  sample : Nat → Except InferenceError Token
  console : Nat → Except Nat Unit
  record : Nat → Except Nat Unit
  status : Nat → Except Nat Unit
  timer : Nat → Except Failure Unit
  runtimeStatus : Nat → Except Failure Unit
  sampled : List Token

/-- The part of the controller that the history depends on. -/
structure Controller where
  engine : InferenceEngine
  committed : List Token
  working : List Token
  committedLen : Nat
  cachedLen : Nat
  historyTurns : Nat
  terminal : Option Failure
  world : World

/-- What a session is opened on, and the floating-point operations of its machine. -/
structure Loaded where
  kernels : Kernels
  model : ModelView
  index : MergeIndex

/-- A computation of a turn, which may fail. -/
abbrev TurnM := Fallible Controller TurnError

/-- A computation of the session, which may end it. -/
abbrev SessionM := Fallible Controller Failure

def zeroTokens : List Token := List.replicate contextLimit 0

section Outside

variable {ε α : Type}

def Controller.tick (s : Controller) : Controller :=
  { s with world := { s.world with clock := s.world.clock + 1 } }

/-- A call to the outside. -/
def outside (answer : World → Nat → α) : Fallible Controller ε α := fun s =>
  (.ok (answer s.world s.world.clock), s.tick)

/-- A call whose failure stops the computation. -/
def demand {β : Type} (call : Fallible Controller ε (Except β Unit)) (failure : β → ε) :
    Fallible Controller ε Unit := do
  match ← call with
  | .ok () => pure ()
  | .error e => fail (failure e)

/-- `write_conout_utf16_checked` -/
def writeConout (units : List UInt16) : Fallible Controller ε (Except Nat Unit) :=
  if Writable units then outside World.console else pure (.error efiDeviceError)

/-- `write_ascii_checked` -/
def writeAscii (bytes : List UInt8) : Fallible Controller ε (Except Nat Unit) :=
  if conoutUnits < bytes.length ∨ ∃ byte ∈ bytes, 128 ≤ byte ∨ byte = 0 then
    pure (.error efiDeviceError)
  else
    writeConout (bytes.map (·.toUInt16))

/-- A token is sampled; the world remembers it. -/
def sampleToken : Fallible Controller ε (Except InferenceError Token) := do
  let answer ← outside World.sample
  match answer with
  | .ok token => do
    modify fun s => { s with world := { s.world with sampled := s.world.sampled ++ [token] } }
    pure answer
  | .error _ => pure answer

/-- A call of the engine, with the logits buffer. -/
def callEngine (method : EngineM InferenceStep) :
    Fallible Controller ε (Except InferenceError InferenceStep) := fun s =>
  let (result, t) := method ⟨s.engine, List.replicate logitWords 0, []⟩
  (.ok result, { s.tick with engine := t.engine })

def clearWorking : Fallible Controller ε Unit :=
  modify fun s => { s with working := zeroTokens }

/-- `reset_engine`; `reset_to_prefix` cannot fail. -/
def resetEngine : Fallible Controller ε Unit :=
  modify fun s => { s with engine := s.engine.resetToPrefix.2, cachedLen := 0 }

/-- `reset_engine_fresh`; `reset` cannot fail. -/
def resetEngineFresh : Fallible Controller ε Unit :=
  modify fun s => { s with engine := s.engine.reset, cachedLen := 0 }

end Outside

/-- A record of a turn. -/
def emitRecord : TurnM Unit := demand (outside World.record) (.ofEfi "EVIDENCE_RECORD" "record")

/-- A text that a turn writes. -/
def writeText (text : String) : TurnM Unit :=
  demand (writeAscii (byteString text)) (.ofEfi "CONOUT_WRITE" "output")

def pollGenerationInterrupt : TurnM (Except TurnError Bool) := do
  match ← outside World.interrupt with
  | .ok pressed => pure (.ok pressed)
  | .error code => pure (.error (.simple code "repl_input" false))

def emitGenerationFailed (error : TurnError) : TurnM Unit := do
  emitRecord
  writeText "promptboot: generation failed "
  writeText error.code
  writeText "\r\n"

end Repl
end Promptboot
