import Chip8VM.Proofs.Likeness
import Chip8VM.Proofs.PowerOn

/-!
# Runs in batches, and frames in between

A host that runs a machine for a while may do it at one go or in batches, and may have the
frame handed out between batches whenever it likes. The program that runs cannot tell.

* Batches add up: to run one after the other, up to the first fault, is to run all their
  cycles (`run_add`, `upToFault_runs`).
* Handing out a frame changes the redraw flag and nothing else, and whatever is asked of a
  machine later does the same to both but for this flag (`EqButFlag.serve`). So requests for
  a frame may be left out of every history (`upToFault_withoutFrames`,
  `serveAll_withoutFrames`).

`run_in_batches` says both of one run.
-/

namespace Chip8VM

/-! ## The redraw flag -/

namespace Guest

/-- The guest with another redraw flag. -/
def withRedraw (g : Guest) (redraw : Bool) : Guest :=
  { g with screen := { g.screen with redraw := redraw } }

/-- Whether two guests are equal but for the redraw flag. -/
def EqButFlag (g g' : Guest) : Prop := ∃ redraw, g' = g.withRedraw redraw

/-- Drawing does not look at the flag. -/
theorem exists_drawSprite_eq (g : Guest) (redraw : Bool) (x y : UInt64) (sprite : List UInt8) :
    ∃ redraw', (g.withRedraw redraw).drawSprite x y sprite =
      (g.drawSprite x y sprite).withRedraw redraw' := by
  cases sprite with
  | nil => exact ⟨redraw, rfl⟩
  | cons byte rest => exact ⟨(g.drawSprite x y (byte :: rest)).screen.redraw, rfl⟩

end Guest

namespace Instruction

/-- No instruction looks at the redraw flag. -/
theorem exists_execute_eq (i : Instruction) (g : Guest) (redraw : Bool) :
    ∃ redraw', i.execute (g.withRedraw redraw) =
      ((i.execute g).1, (i.execute g).2.withRedraw redraw') := by
  have hskip : ∀ c : Bool,
      (g.withRedraw redraw).skipIf c = (g.skipIf c).withRedraw redraw := by
    intro c
    cases c <;> rfl
  cases i
  case clear => exact ⟨true, rfl⟩
  case draw x y n =>
    simp only [execute]
    rw [show (g.withRedraw redraw).memory = g.memory from rfl,
      show (g.withRedraw redraw).processor = g.processor from rfl]
    cases g.memory.slice g.processor.i.toUInt64 n.toUInt64 with
    | error fault => exact ⟨redraw, rfl⟩
    | ok sprite =>
      obtain ⟨redraw', hdraw⟩ := g.exists_drawSprite_eq redraw x y sprite
      exact ⟨redraw', congrArg (Prod.mk _) hdraw⟩
  case ret | call | storeDecimal | storeRegisters | loadRegisters =>
    exact ⟨redraw, Guest.attempt_change (·.withRedraw redraw) g _ fun _ => rfl⟩
  case skipEqByte | skipNeByte | skipEq | skipNe | skipPressed | skipReleased =>
    exact ⟨redraw, congrArg (Prod.mk _) (hskip _)⟩
  all_goals exact ⟨redraw, rfl⟩

end Instruction

namespace Guest

/-- Guests that are equal but for the redraw flag are run alike. -/
theorem likeness_eqButFlag : Likeness EqButFlag where
  refl g := ⟨g.screen.redraw, rfl⟩
  hidden h := by
    obtain ⟨redraw, rfl⟩ := h
    exact ⟨_, redraw, rfl⟩
  execute h i := by
    obtain ⟨redraw, rfl⟩ := h
    obtain ⟨redraw', hexec⟩ := i.exists_execute_eq _ redraw
    rw [hexec]
    exact ⟨rfl, redraw', rfl⟩
  adjust h _ _ _ _ _ := by
    obtain ⟨redraw, rfl⟩ := h
    exact ⟨redraw, rfl⟩

end Guest

namespace Machine

/-! ## Machines that are equal but for the redraw flag -/

/-- Whether two machines are equal but for the redraw flag. -/
def EqButFlag (m m' : Machine) : Prop :=
  ∃ redraw, m' = { m with guest := m.guest.withRedraw redraw }

namespace EqButFlag

variable {m m' m'' : Machine}

theorem refl (m : Machine) : m.EqButFlag m := ⟨m.guest.screen.redraw, rfl⟩

theorem symm (h : m.EqButFlag m') : m'.EqButFlag m := by
  obtain ⟨redraw, rfl⟩ := h
  exact ⟨m.guest.screen.redraw, rfl⟩

theorem trans (h : m.EqButFlag m') (h' : m'.EqButFlag m'') : m.EqButFlag m'' := by
  obtain ⟨redraw, rfl⟩ := h
  obtain ⟨redraw', rfl⟩ := h'
  exact ⟨redraw', rfl⟩

theorem takeFrame (m : Machine) : m.EqButFlag m.takeFrame.2 := by
  refine ⟨m.takeFrame.2.guest.screen.redraw, ?_⟩
  simp only [Machine.takeFrame, Screen.takeFrame]
  split
  · rfl
  · rfl

theorem iff_alike : m.EqButFlag m' ↔ m.Alike Guest.EqButFlag m' ∧ m'.supply = m.supply := by
  constructor
  · rintro ⟨redraw, rfl⟩
    exact ⟨⟨rfl, ⟨redraw, rfl⟩, rfl, rfl, fun _ => rfl⟩, rfl⟩
  · rintro ⟨⟨hsettings, ⟨redraw, hguest⟩, hprogram, hcounter, -⟩, hsupply⟩
    obtain ⟨settings, guest, program, counter, supply⟩ := m'
    dsimp only at hsettings hguest hprogram hcounter hsupply
    exact ⟨redraw, by rw [hsettings, hguest, hprogram, hcounter, hsupply]⟩

/-- Requests for anything but a frame are answered alike, and the machines stay equal but for
the flag. -/
theorem serve (h : m.EqButFlag m') {request : Request} (hframe : request ≠ .takeFrame) :
    (m.serve request).Like EqButFlag (m'.serve request) := by
  obtain ⟨halike, hsupply⟩ := iff_alike.1 h
  obtain ⟨hresult, hlog, hmachine⟩ := Guest.likeness_eqButFlag.serve halike hframe
  refine ⟨hresult, hlog, iff_alike.2 ⟨hmachine, ?_⟩⟩
  cases hseed : m.settings.seed with
  | none => exact hmachine.supply (by rw [serve_settings, hseed])
  | some seed =>
    have hseed' : m'.settings.seed = some seed := by rw [halike.settings, hseed]
    rw [serve_supply hseed, serve_supply hseed', hsupply]

end EqButFlag

/-! ## Batches -/

/-- The requests of a list one after the other, up to the first that faults, as one reply. -/
def upToFault (m : Machine) : List Request → Reply Unit
  | [] => ⟨.ok (), m, []⟩
  | request :: rest => (m.serve request).andThen (·.upToFault rest)

/-- Whether a request asks for the frame. -/
def Request.isTakeFrame : Request → Bool
  | .takeFrame => true
  | _ => false

/-- A history without its requests for the frame. -/
def withoutFrames (history : List Request) : List Request :=
  history.filter (!·.isTakeFrame)

theorem withoutFrames_cons {request : Request} (hframe : request ≠ .takeFrame)
    (rest : List Request) :
    withoutFrames (request :: rest) = request :: withoutFrames rest := by
  cases request with
  | takeFrame => exact absurd rfl hframe
  | _ => rfl

/-- A run goes on where a shorter one has stopped, unless that was at a fault. -/
theorem run_add (m : Machine) (a b : Nat) : m.run (a + b) = (m.run a).andThen (·.run b) := by
  induction a generalizing m with
  | zero => rw [Nat.zero_add, run_zero, Reply.andThen_ok, List.nil_append]
  | succ a ih =>
    rw [Nat.succ_add, run_succ_eq, run_succ_eq, Reply.andThen_assoc]
    simp only [ih]

/-- Batches up to the first fault are one run of all their cycles. -/
theorem upToFault_runs (m : Machine) (sizes : List UInt32) :
    m.upToFault (sizes.map .run) = m.run (sizes.map UInt32.toNat).sum := by
  induction sizes generalizing m with
  | nil => rfl
  | cons size rest ih =>
    rw [List.map_cons, List.map_cons, List.sum_cons, run_add, upToFault, Machine.serve,
      Reply.noFrame_andThen]
    simp only [ih]

/-! ## Frames in between -/

/-- Requests for the frame may be left out of a list that is followed up to the first fault. -/
theorem upToFault_withoutFrames {m m' : Machine} (h : m.EqButFlag m')
    (requests : List Request) :
    (m.upToFault (withoutFrames requests)).Like EqButFlag (m'.upToFault requests) := by
  induction requests generalizing m m' with
  | nil => exact ⟨rfl, rfl, h⟩
  | cons request rest ih =>
    by_cases hframe : request = .takeFrame
    · subst hframe
      exact ih (h.trans (.takeFrame m'))
    · rw [withoutFrames_cons hframe]
      exact (h.serve hframe).andThen ih

/-- Requests for the frame may be left out of a history. -/
theorem serveAll_withoutFrames {m m' : Machine} (h : m.EqButFlag m') (history : List Request) :
    (m.serveAll (withoutFrames history)).EqButFlag (m'.serveAll history) := by
  induction history generalizing m m' with
  | nil => exact h
  | cons request rest ih =>
    by_cases hframe : request = .takeFrame
    · subst hframe
      exact ih (h.trans (.takeFrame m'))
    · rw [withoutFrames_cons hframe]
      exact ih (h.serve hframe).machine

/-- A run at one go, and the same run in batches up to the first fault with the frame handed
out in between, have the same result and log and leave machines that are equal but for the
redraw flag. The machines stay so whatever is asked of both later, with the frame handed out
in between or not, and every later request but one for the frame has the same result and log
in both. -/
theorem run_in_batches (m : Machine) {n : UInt32} {sizes : List UInt32}
    {requests : List Request} (hsum : (sizes.map UInt32.toNat).sum = n.toNat)
    (hbatches : withoutFrames requests = sizes.map .run) :
    let whole := m.run n.toNat
    let batched := m.upToFault requests
    whole.Like EqButFlag batched ∧
      ∀ later later', withoutFrames later = withoutFrames later' →
        (whole.machine.serveAll later).EqButFlag (batched.machine.serveAll later') ∧
        ∀ request, request ≠ .takeFrame →
          ((whole.machine.serveAll later).serve request).Like EqButFlag
            ((batched.machine.serveAll later').serve request) := by
  intro whole batched
  have hwhole : m.upToFault (withoutFrames requests) = whole := by
    rw [hbatches, upToFault_runs, hsum]
  have hlike : whole.Like EqButFlag batched :=
    hwhole ▸ upToFault_withoutFrames (.refl m) requests
  refine ⟨hlike, ?_⟩
  intro later later' hsame
  have hwithout := serveAll_withoutFrames (.refl whole.machine) later
  have hwithout' := serveAll_withoutFrames hlike.machine later'
  rw [hsame] at hwithout
  have hlater := hwithout.symm.trans hwithout'
  exact ⟨hlater, fun request hframe => hlater.serve hframe⟩

/-- A machine whose program darkens the screen and then waits for a key. -/
def blanking : Machine :=
  ((powerOn ⟨1, some 8⟩ idleSupply).serve (.load [0x00, 0xE0, 0xF5, 0x0A])).machine

set_option maxRecDepth 100000 in
/-- The wait begins within the last batch, and by then only the machine that was run in batches
has handed out its frame. After the key both run into the end of the program. -/
theorem run_in_batches_of_wait :
    let whole := blanking.run 8
    let batched := blanking.upToFault [.run 1, .takeFrame, .run 0, .run 7]
    let later := whole.machine.serveAll [.answerKey 3, .run 2]
    let later' := batched.machine.serveAll [.answerKey 3, .takeFrame, .run 2]
    whole.machine.isWaiting = true ∧ whole.machine.guest.screen.redraw = true ∧
      batched.machine.guest.screen.redraw = false ∧ whole.Like EqButFlag batched ∧
      later.EqButFlag later' ∧ (later'.serve .cycle).result = .error (.unknownOpcode 0) ∧
      (later.serve .cycle).Like EqButFlag (later'.serve .cycle) := by
  intro whole batched later later'
  obtain ⟨hwait, hraised, hlowered, hfault⟩ : whole.machine.isWaiting = true ∧
      whole.machine.guest.screen.redraw = true ∧ batched.machine.guest.screen.redraw = false ∧
      (later'.serve .cycle).result = .error (.unknownOpcode 0) := by decide +kernel
  obtain ⟨hlike, hlater⟩ := run_in_batches blanking (n := 8)
    (show ([1, 0, 7].map UInt32.toNat).sum = (8 : UInt32).toNat from rfl)
    (show withoutFrames [.run 1, .takeFrame, .run 0, .run 7] = [1, 0, 7].map .run from rfl)
  obtain ⟨heq, hserve⟩ :=
    hlater [.answerKey 3, .run 2] [.answerKey 3, .takeFrame, .run 2] rfl
  exact ⟨hwait, hraised, hlowered, hlike, heq, hfault, hserve .cycle nofun⟩

end Machine

end Chip8VM
