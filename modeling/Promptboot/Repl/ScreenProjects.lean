import Promptboot.Lib.Projects
import Promptboot.Repl.ScreenCalls

/-!
# The console on the firmware's screen

A run of the console's routines on a firmware that keeps to its documentation is a run of the same
routines on the text screen that the firmware shows, as long as it ends well: all its calls have then
succeeded, and each does to what is shown what it does to a text screen (`conoutCall_projects`). There
is a lemma for each routine of the console, up to `ConsoleOp.run_projects` for what the session does
and `initializeModelStatus_projects` for its start.
-/

namespace Promptboot
open TextScreen (console)
open Fallible (Projects)

variable {σ : Type} {firmware : TextOutput σ} {conout : Nat → ConoutReply σ}

/-- The state with the screen that the firmware shows. -/
def ConsoleState.view (firmware : TextOutput σ) (s : ConsoleState σ) : ScreenState where
  screen := firmware.view s.screen
  calls := s.calls
  history := s.history
  status := s.status
  statusRow := s.statusRow

/-- A text screen on which every call succeeds. -/
def calmReplies : Nat → ConoutReply TextScreen := fun _ => ⟨efiSuccess, id⟩

/-- Where a call succeeds, so does the other on what is shown. -/
def CallProjects (firmware : TextOutput σ) (call : ConsoleState σ → Nat × ConsoleState σ)
    (shown : ScreenState → Nat × ScreenState) : Prop :=
  ∀ s t, call s = (efiSuccess, t) → shown (s.view firmware) = (efiSuccess, t.view firmware)

section Calls

/-- A call projects to a call that does the same on the screen. -/
lemma conoutCall_projects {f : σ → σ} {g : TextScreen → TextScreen}
    (same : ∀ screen, firmware.view (f screen) = g (firmware.view screen)) :
    CallProjects firmware (conoutCall conout f) (conoutCall calmReplies g) := by
  intro s t run
  unfold conoutCall at run ⊢
  obtain ⟨status, rfl⟩ := Prod.mk.inj run
  rw [if_pos status]
  dsimp only [ConsoleState.view, calmReplies]
  rw [if_pos rfl, same]

/-- A checked call projects as the call does. -/
lemma checkedCall_projects {call : ConsoleState σ → Nat × ConsoleState σ}
    {shown : ScreenState → Nat × ScreenState} (projects : CallProjects firmware call shown) :
    Projects (ConsoleState.view firmware) (checkedCall call) (checkedCall shown) := by
  rintro s ⟨⟩ t run
  unfold checkedCall
  rw [projects s t (checkedCall_ok run)]
  exact if_pos rfl

variable (documented : firmware.Documented)
include documented

/-- Clearing projects to the screen. -/
lemma clearScreen_projects :
    CallProjects firmware (clearScreen firmware conout) (clearScreen console calmReplies) :=
  conoutCall_projects documented.clear

/-- Positioning the cursor projects to the screen. -/
lemma setCursorPosition_projects (column row : Nat) :
    CallProjects firmware (setCursorPosition firmware conout column row)
      (setCursorPosition console calmReplies column row) :=
  conoutCall_projects fun s => documented.moveTo s column row

/-- Setting the attribute projects to the screen. -/
lemma setAttribute_projects (attr : Nat) :
    CallProjects firmware (setAttribute firmware conout attr)
      (setAttribute console calmReplies attr) :=
  conoutCall_projects fun s => documented.setAttribute s attr

/-- A string projects to the screen. -/
lemma outputString_projects (units : List UInt16) :
    CallProjects firmware (outputString firmware conout units)
      (outputString console calmReplies units) := by
  have whole : 0 ∉ units.takeWhile (· ≠ 0) := by
    intro mem
    simpa using List.mem_takeWhile_imp mem
  exact conoutCall_projects fun s => documented.write s whole

/-- Chunks project to the screen. -/
lemma outputChunks_projects (chunks : List (List UInt16)) :
    CallProjects firmware (outputChunks firmware conout chunks)
      (outputChunks console calmReplies chunks) := by
  induction chunks with
  | nil =>
    rintro s t ⟨⟩
    rfl
  | cons chunk chunks ih =>
    intro s t run
    unfold outputChunks at run ⊢
    rcases made : outputString firmware conout chunk s with ⟨status, left⟩
    rw [made] at run
    dsimp only at run
    split_ifs at run with success
    · rw [success] at made
      rw [outputString_projects documented chunk s left made]
      dsimp only
      rw [if_pos rfl]
      exact ih left t run
    · exact absurd (congrArg Prod.fst run) success

/-- A text projects to the screen. -/
lemma rawConoutUtf16_projects (units : List UInt16) :
    CallProjects firmware (rawConoutUtf16 firmware conout units)
      (rawConoutUtf16 console calmReplies units) :=
  outputChunks_projects documented _

/-- Setting the cursor projects to the screen. -/
lemma setConsoleCursor_projects (column row : Nat) :
    Projects (ConsoleState.view firmware) (setConsoleCursor firmware conout column row)
      (setConsoleCursor console calmReplies column row) :=
  checkedCall_projects (setCursorPosition_projects documented column row)

/-- Showing the cursor projects to the screen. -/
lemma enableConsoleCursor_projects :
    Projects (ConsoleState.view firmware) (enableConsoleCursor firmware conout)
      (enableConsoleCursor console calmReplies) :=
  checkedCall_projects (conoutCall_projects documented.enableCursor)

end Calls

section Wrap
variable {α β : Type} {view : α → β} {output : α → List UInt16 → α × Nat}
  {shown : β → List UInt16 → β × Nat} {units : List UInt16} {width : Nat}

/-- The loop that wraps projects if its output does. -/
lemma wrapLoop_projects (projects : ∀ s piece t, output s piece = (t, 0) →
      shown (view s) piece = (view t, 0)) {rest : List UInt16} {index column start : Nat} {s t : α}
    {result : Nat × Nat}
    (run : wrapLoop units width output rest index column start s = (t, .ok result)) :
    wrapLoop units width shown rest index column start (view s) = (view t, .ok result) := by
  induction rest generalizing index column start s with
  | nil =>
    cases run
    rfl
  | cons unit rest ih =>
    rw [wrapLoop] at run ⊢
    split_ifs at run ⊢ with backspace carriage feed ends
    · exact ih run
    · exact ih run
    · exact ih run
    -- the row is full: the piece and the new line behind it go out
    · rcases first : output s ((units.take (index + 1)).drop start) with ⟨left, status⟩
      rw [first] at run
      dsimp only at run
      by_cases failed : status ≠ 0
      · rw [if_pos failed] at run
        cases run
      rw [if_neg failed] at run
      obtain rfl : status = 0 := not_not.1 failed
      rcases second : output left [0x000d, 0x000a] with ⟨left', status⟩
      rw [second] at run
      dsimp only at run
      by_cases failed' : status ≠ 0
      · rw [if_pos failed'] at run
        cases run
      rw [if_neg failed'] at run
      obtain rfl : status = 0 := not_not.1 failed'
      rw [projects _ _ _ first]
      dsimp only
      rw [if_neg failed, projects _ _ _ second]
      dsimp only
      rw [if_neg failed']
      exact ih run
    · exact ih run

/-- A wrapped output projects as its outputs do. -/
lemma writeContentWithWrap_projects (projects : ∀ s piece t, output s piece = (t, 0) →
      shown (view s) piece = (view t, 0)) {column column' : Nat} {s t : α}
    (run : writeContentWithWrap units width output column s = (t, .ok column')) :
    writeContentWithWrap units width shown column (view s) = (view t, .ok column') := by
  unfold writeContentWithWrap at run ⊢
  by_cases outside : width = 0 ∨ width ≤ column
  · rw [if_pos outside] at run
    cases run
  rw [if_neg outside] at run ⊢
  rcases looped : wrapLoop units width output units 0 column 0 s with ⟨left, error | ⟨last, stop⟩⟩
  · rw [looped] at run
    cases run
  rw [looped] at run
  rw [wrapLoop_projects projects looped]
  dsimp only at run ⊢
  by_cases more : stop < units.length
  · rw [if_pos more] at run ⊢
    rcases final : output left (units.drop stop) with ⟨left', status⟩
    rw [final] at run
    dsimp only at run
    by_cases failed : status ≠ 0
    · rw [if_pos failed] at run
      cases run
    rw [if_neg failed] at run
    obtain rfl : status = 0 := not_not.1 failed
    cases run
    rw [projects _ _ _ final]
    exact if_neg failed
  · rw [if_neg more] at run ⊢
    cases run
    rfl

end Wrap

section Routines
variable (documented : firmware.Documented)
include documented

/-- A wrapped text projects to the screen. -/
lemma rawContentUtf16_projects (units : List UInt16) (column width : Nat) :
    Projects (ConsoleState.view firmware) (rawContentUtf16 firmware conout units column width)
      (rawContentUtf16 console calmReplies units column width) := by
  intro s last t run
  unfold rawContentUtf16 at run ⊢
  dsimp only at run ⊢
  have sent (s : ConsoleState σ) (piece : List UInt16) (t : ConsoleState σ)
      (made : ((rawConoutUtf16 firmware conout piece s).2,
        (rawConoutUtf16 firmware conout piece s).1) = (t, 0)) :
      ((rawConoutUtf16 console calmReplies piece (s.view firmware)).2,
        (rawConoutUtf16 console calmReplies piece (s.view firmware)).1) = (t.view firmware, 0) := by
    obtain ⟨left, status⟩ := Prod.mk.inj made
    rw [rawConoutUtf16_projects documented piece s t (Prod.ext status left)]
    rfl
  rcases wrote : writeContentWithWrap units width (fun s rendered =>
      ((rawConoutUtf16 firmware conout rendered s).2,
        (rawConoutUtf16 firmware conout rendered s).1)) column s with ⟨left, error | next⟩
  · rw [wrote] at run
    cases run
  · rw [wrote] at run
    cases run
    rw [writeContentWithWrap_projects sent wrote]

/-- Rendering the status row projects to the screen. -/
lemma renderStatusRow_projects (attr column row statusRow : Nat) (units : List UInt16) :
    Projects (ConsoleState.view firmware)
      (renderStatusRow firmware conout attr column row statusRow units)
      (renderStatusRow console calmReplies attr column row statusRow units) := by
  rintro s ⟨⟩ t run
  obtain ⟨s₁, s₂, s₃, s₄, first, second, third, fourth, fifth⟩ := renderStatusRow_calls run
  exact renderStatusRow_of_calls (setCursorPosition_projects documented _ _ _ _ first)
    (setAttribute_projects documented _ _ _ second) (rawConoutUtf16_projects documented _ _ _ third)
    (setAttribute_projects documented _ _ _ fourth)
    (setCursorPosition_projects documented _ _ _ _ fifth)

/-- Painting the status row projects to the screen. -/
lemma paintStatusRow_projects (units : List UInt16) :
    Projects (ConsoleState.view firmware) (paintStatusRow firmware conout units)
      (paintStatusRow console calmReplies units) :=
  .read fun _ => renderStatusRow_projects documented _ _ _ _ _

/-- Restoring the status row projects to the screen. -/
lemma restoreStatusRow_projects :
    Projects (ConsoleState.view firmware) (restoreStatusRow firmware conout)
      (restoreStatusRow console calmReplies) :=
  .read fun _ => .ite .fail (paintStatusRow_projects documented _)

/-- A status text projects to the screen. -/
lemma renderStatusAscii_projects (bytes : List UInt8) :
    Projects (ConsoleState.view firmware) (renderStatusAscii firmware conout bytes)
      (renderStatusAscii console calmReplies bytes) :=
  .read fun _ => .ite .fail <| .bind (.modify fun _ => rfl) fun _ =>
    paintStatusRow_projects documented _

omit documented in
/-- Reading a line of the view is the same on the screen. -/
lemma viewportLine_projects (row : Nat) :
    Projects (ConsoleState.view firmware) (viewportLine row) (viewportLine row) :=
  .lift fun _ => rfl

omit documented in
/-- Reading the cursor of the view is the same on the screen. -/
lemma viewportCursor_projects :
    Projects (ConsoleState.view firmware) viewportCursor viewportCursor :=
  .lift fun _ => rfl

/-- A text of the console's own. -/
lemma checkedConout_projects (units : List UInt16) :
    Projects (ConsoleState.view firmware) (checkedCall (rawConoutUtf16 firmware conout units))
      (checkedCall (rawConoutUtf16 console calmReplies units)) :=
  checkedCall_projects (rawConoutUtf16_projects documented units)

/-- Redrawing a plain line projects to the screen. -/
lemma redrawPlainLine_projects (lines row : Nat) :
    Projects (ConsoleState.view firmware) (redrawPlainLine firmware conout lines row)
      (redrawPlainLine console calmReplies lines row) :=
  (viewportLine_projects row).bind fun _ => (checkedConout_projects documented _).bind fun _ =>
    .ite (checkedConout_projects documented _) .pure

/-- Redrawing a line projects to the screen. -/
lemma redrawLine_projects (row : Nat) :
    Projects (ConsoleState.view firmware) (redrawLine firmware conout row)
      (redrawLine console calmReplies row) :=
  (viewportLine_projects row).bind fun _ => .ite .pure <|
    (setConsoleCursor_projects documented _ _).bind fun _ => .ite
      ((checkedConout_projects documented _).bind fun _ =>
        (setConsoleCursor_projects documented _ _).bind fun _ => checkedConout_projects documented _)
      (checkedConout_projects documented _)

/-- Redrawing the view projects to the screen. -/
lemma redrawConsoleHistory_projects :
    Projects (ConsoleState.view firmware) (redrawConsoleHistory firmware conout)
      (redrawConsoleHistory console calmReplies) :=
  .read fun _ => (checkedCall_projects (clearScreen_projects documented)).bind fun _ => .ite
    (.forM _ fun _ => redrawPlainLine_projects documented _ _)
    ((Projects.forM _ fun _ => redrawLine_projects documented _).bind fun _ =>
      viewportCursor_projects.bind fun _ => (setConsoleCursor_projects documented _ _).bind fun _ =>
        restoreStatusRow_projects documented)

/-- Content projects to the screen. -/
lemma outputContent_projects (units : List UInt16) (column width : Nat) :
    Projects (ConsoleState.view firmware) (outputContent firmware conout units column width)
      (outputContent console calmReplies units column width) :=
  .ite
    ((rawContentUtf16_projects documented _ _ _).bind fun _ => .read fun _ =>
      (setConsoleCursor_projects documented _ _).bind fun _ =>
        (rawContentUtf16_projects documented _ _ _).bind fun _ => .pure)
    ((rawContentUtf16_projects documented _ _ _).bind fun _ => .pure)

/-- An output at the bottom projects to the screen. -/
lemma outputAtBottom_projects (units : List UInt16) :
    Projects (ConsoleState.view firmware) (outputAtBottom firmware conout units)
      (outputAtBottom console calmReplies units) := by
  refine .read fun s => .ite ?_ (viewportCursor_projects.bind fun cursor => ?_)
  · exact .bind (.modify fun _ => rfl) fun _ => checkedConout_projects documented _
  · dsimp only [ConsoleState.view]
    split
    · exact .fail
    · exact .bind (.modify fun _ => rfl) fun _ =>
        (setConsoleCursor_projects documented _ _).bind fun _ =>
          (outputContent_projects documented _ _ _).bind fun _ =>
            .ite .pure (restoreStatusRow_projects documented)

/-- A console output projects to the screen. -/
lemma consoleOutputUtf16_projects (units : List UInt16) :
    Projects (ConsoleState.view firmware) (consoleOutputUtf16 firmware conout units)
      (consoleOutputUtf16 console calmReplies units) :=
  .read fun _ => .bind (.modify fun _ => rfl) fun _ =>
    (Projects.ite (redrawConsoleHistory_projects documented) .pure).bind fun _ =>
      outputAtBottom_projects documented units

/-- A page key projects to the screen. -/
lemma scrollConsolePage_projects (up : Bool) :
    Projects (ConsoleState.view firmware) (scrollConsolePage firmware conout up)
      (scrollConsolePage console calmReplies up) :=
  .read fun _ => .bind (.modify fun _ => rfl) fun _ =>
    .ite (redrawConsoleHistory_projects documented) .pure

/-- A reset projects to the screen. -/
lemma resetConsoleHistory_projects :
    Projects (ConsoleState.view firmware) (resetConsoleHistory firmware conout)
      (resetConsoleHistory console calmReplies) :=
  .bind (.modify fun _ => rfl) fun _ => .read fun _ =>
    (Projects.ite (redrawConsoleHistory_projects documented)
      (checkedCall_projects (clearScreen_projects documented))).bind fun _ =>
      enableConsoleCursor_projects documented

/-- The initialisation projects to the screen. -/
lemma initializeModelStatus_projects (columns rows : Nat) :
    Projects (ConsoleState.view firmware) (initializeModelStatus firmware conout columns rows)
      (initializeModelStatus console calmReplies columns rows) := by
  unfold initializeModelStatus
  split
  · exact .fail
  · exact (checkedCall_projects (clearScreen_projects documented)).bind fun _ =>
      .bind (.modify fun _ => rfl) fun _ => (renderStatusAscii_projects documented _).bind fun _ =>
        setConsoleCursor_projects documented _ _

/-- Every operation projects to the screen. -/
lemma ConsoleOp.run_projects (op : ConsoleOp) :
    Projects (ConsoleState.view firmware) (op.run firmware conout) (op.run console calmReplies) := by
  cases op with
  | output units => exact consoleOutputUtf16_projects documented units
  | page up => exact scrollConsolePage_projects documented up
  | reset => exact resetConsoleHistory_projects documented
  | status bytes => exact renderStatusAscii_projects documented bytes

end Routines

end Promptboot
