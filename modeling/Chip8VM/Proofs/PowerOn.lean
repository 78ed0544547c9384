import Chip8VM.Proofs.Stretches

/-!
# Starting over is booting

A reset, and a load that succeeds, leave no trace of what the machine did before. The
machine is then the one that `boot` makes with the same settings and the program: with a
seed it is equal to it, and without one it is equal but for random bytes (`Booted`). The
program of a reset is the image of the last load that succeeded (`serveAll_program`).
-/

namespace Chip8VM

/-! ## Memory after a load -/

namespace Memory

/-- The byte that memory holds just after a program was loaded: the font at the bottom, the
program where programs start, and zero. -/
def loadedByte (program : List UInt8) (place : Nat) : UInt8 :=
  if place < 80 then Font.sheet.getD place 0
  else if 0x200 ≤ place ∧ place < 0x200 + program.length then program.getD (place - 0x200) 0
  else 0

theorem byteAt_powerOn {place : Nat} (h : place < 4096) :
    powerOn.byteAt place = if place < 80 then Font.sheet.getD place 0 else 0 := by
  have hzero : (Memory.mk (Vector.replicate 4096 0)).byteAt place = 0 := by simp [byteAt, h]
  rw [powerOn, loadFont, byteAt_overwrite _ _ _ h, Font.length_sheet, hzero, Nat.sub_zero]
  refine if_congr ?_ rfl rfl
  omega

theorem byteAt_of_loadProgram {program : List UInt8} {memory : Memory}
    (hload : powerOn.loadProgram program = .ok memory) {place : Nat} (h : place < 4096) :
    memory.byteAt place = loadedByte program place := by
  rw [loadProgram_eq] at hload
  split at hload
  · cases hload
  · obtain rfl := Except.ok.inj hload
    rw [byteAt_overwrite _ _ _ h, byteAt_powerOn h, loadedByte]
    by_cases hprogram : 0x200 ≤ place ∧ place < 0x200 + program.length
    · rw [if_pos hprogram, if_neg (by omega), if_pos hprogram]
    · rw [if_neg hprogram, if_neg hprogram]

end Memory

namespace Machine

/-! ## The program that is kept -/

/-- The program image that a request loads: none unless it is a load and succeeds. -/
def loadedBy (m : Machine) (request : Request) : Option (List UInt8) :=
  if (m.serve request).result.isOk then request.image? else none

/-- The image of the last load of a history that succeeds, and another one if none does. -/
def lastImage (m : Machine) (otherwise : List UInt8) : List Request → List UInt8
  | [] => otherwise
  | request :: rest =>
    (m.serve request).machine.lastImage ((m.loadedBy request).getD otherwise) rest

theorem cycle_program (m : Machine) : m.cycle.machine.program = m.program := by
  obtain ⟨guest, counter, hmachine⟩ := m.exists_cycle_eq
  rw [hmachine]

theorem cycle_supply (m : Machine) : m.cycle.machine.supply = m.supply := by
  obtain ⟨guest, counter, hmachine⟩ := m.exists_cycle_eq
  rw [hmachine]

/-- An image is loaded by a request that starts the machine over. -/
theorem startsOver_of_loadedBy {m : Machine} {request : Request} {program : List UInt8}
    (h : m.loadedBy request = some program) :
    m.startsOver request = true ∧ request.image? = some program := by
  unfold loadedBy at h
  split at h
  · rename_i hok
    refine ⟨?_, h⟩
    cases request with
    | load | loadRom => rw [startsOver, hok]; rfl
    | _ => cases h
  · cases h

/-- A request leaves the program that it loads, or else the one that was kept. -/
theorem serve_program (m : Machine) (request : Request) :
    (m.serve request).machine.program = (m.loadedBy request).getD m.program := by
  cases m.served request with
  | startedOver hstart hprogram hload hmachine =>
    rw [startsOver, Bool.and_eq_true] at hstart
    rw [hmachine, loadedBy, if_pos hstart.2, ← hprogram]
    rfl
  | touched v keypad redraw hstart hdone hmachine =>
    have hnone : m.loadedBy request = none := by
      refine Option.eq_none_iff_forall_ne_some.2 fun program h => ?_
      rw [(startsOver_of_loadedBy h).1] at hstart
      cases hstart
    rw [hmachine, hnone]
    rfl
  | emptied _ hmachine =>
    have hnone : m.loadedBy .reset = none := ite_self _
    rw [hmachine, hnone]
    rfl
  | cycle =>
    have hnone : m.loadedBy .cycle = none := ite_self _
    rw [hnone]
    exact m.cycle_program
  | run n =>
    have hnone : m.loadedBy (.run n) = none := ite_self _
    rw [hnone]
    exact run_invariant (P := fun m' => m'.program = m.program)
      (fun m' h => m'.cycle_program.trans h) rfl n.toNat

/-- The program that is kept is the image of the last load that succeeded. -/
theorem serveAll_program (m : Machine) (history : List Request) :
    (m.serveAll history).program = m.lastImage m.program history := by
  induction history generalizing m with
  | nil => rfl
  | cons request rest ih => rw [serveAll_cons, ih, lastImage, serve_program]

/-! ## Random bytes -/

/-- The machine with other random bytes, those of the program and those still to be given
out. -/
def withRandom (m : Machine) (random : Random.Stream) (supply : Random.Supply) : Machine :=
  { m with guest := { m.guest with random := random }, supply := supply }

/-- A machine with a seed never asks for another key. -/
theorem serve_supply {m : Machine} {seed : UInt64} (hseed : m.settings.seed = some seed)
    (request : Request) : (m.serve request).machine.supply = m.supply := by
  cases m.served request with
  | startedOver _ _ _ hmachine =>
    rw [hmachine]
    simp only [restart, powerOn, nextSupply, hseed]
  | emptied _ hmachine | touched _ _ _ _ _ hmachine =>
    rw [hmachine]
    rfl
  | cycle => exact m.cycle_supply
  | run n =>
    exact run_invariant (P := fun m' => m'.supply = m.supply)
      (fun m' h => m'.cycle_supply.trans h) rfl n.toNat

theorem serveAll_supply {m : Machine} {seed : UInt64} (hseed : m.settings.seed = some seed)
    (history : List Request) : (m.serveAll history).supply = m.supply := by
  induction history generalizing m with
  | nil => rfl
  | cons request rest ih =>
    rw [serveAll_cons, ih ((m.serve_settings request).symm ▸ hseed), serve_supply hseed]

/-! ## Booted machines -/

/-- A machine that is as if just made with a program. -/
structure Booted (settings : Settings) (supply : Random.Supply) (program : List UInt8)
    (m : Machine) : Prop where
  /-- A machine can be made with the program. -/
  made : (boot settings supply program).result = .ok ()
  /-- With a seed it is the machine in every respect. -/
  seeded : ∀ seed, settings.seed = some seed → m = (boot settings supply program).machine
  /-- Without one it is the machine in every respect but the random bytes. -/
  unseeded : ∀ random rest,
    m.withRandom random rest = (boot settings supply program).machine.withRandom random rest
  /-- Memory holds the font, the program and nothing else. -/
  memory : ∀ place < 4096, m.guest.memory.byteAt place = Memory.loadedByte program place

/-- A machine that was started over is as if just made. -/
theorem booted_restart {m : Machine} {settings : Settings} {supply : Random.Supply}
    (hsettings : m.settings = settings)
    (hsupply : ∀ seed, settings.seed = some seed → m.supply = supply)
    {program : List UInt8} {memory : Memory}
    (hload : Memory.powerOn.loadProgram program = .ok memory) :
    Booted settings supply program (m.restart program memory) := by
  have hboot : boot settings supply program =
      ⟨.ok (), (powerOn settings supply).restart program memory, [.loaded program.length]⟩ := by
    rw [boot, load, hload]
  subst hsettings
  constructor
  · rw [hboot]
  · intro seed hseed
    obtain rfl := hsupply seed hseed
    rw [hboot]
    simp only [restart, powerOn, nextStream, nextSupply, hseed]
  · intro random rest
    rw [hboot]
    rfl
  · intro place hplace
    exact Memory.byteAt_of_loadProgram hload hplace

/-- A machine with any history, reset, is as if just made with the image of the last load
that succeeded. So is a machine with any history that has just loaded a program, with this
program. -/
theorem restart_is_boot (settings : Settings) (supply : Random.Supply) (history : List Request) :
    let m := (powerOn settings supply).serveAll history
    m.reset.result = .ok () ∧
      Booted settings supply ((powerOn settings supply).lastImage [] history) m.reset.machine ∧
      ∀ request program, m.loadedBy request = some program →
        Booted settings supply program (m.serve request).machine := by
  intro m
  have hsettings : m.settings = settings := serveAll_settings _ history
  have hsupply : ∀ seed, settings.seed = some seed → m.supply = supply := fun seed hseed => by
    have hkept := serveAll_supply (m := powerOn settings supply) hseed history
    rw [hkept]
    simp only [powerOn, nextSupply, hseed]
  have hprogram : m.program = (powerOn settings supply).lastImage [] history :=
    serveAll_program _ history
  obtain ⟨memory, hload, hreset⟩ :=
    ((reachable_powerOn settings supply).serveAll history).sound.reset_eq
  refine ⟨by rw [hreset], ?_, fun request program hloaded => ?_⟩
  · rw [hreset, ← hprogram]
    exact booted_restart hsettings hsupply hload
  · obtain ⟨hstart, himage⟩ := startsOver_of_loadedBy hloaded
    cases m.served request with
    | startedOver _ hprogram hload hmachine =>
      rw [himage, Option.getD_some] at hprogram
      rw [hmachine, hprogram]
      exact booted_restart hsettings hsupply (hprogram ▸ hload)
    | emptied hnot | touched _ _ _ hnot =>
      rw [hnot] at hstart
      cases hstart
    | cycle | run => cases hstart

/-- A program that waits for a key in its second instruction. -/
def askingProgram : List UInt8 := [0x62, 0x22, 0xF5, 0x0A]

/-- The history of a machine that has run this program up to the wait, and was then refused
an image that is one byte too long. -/
def refusedLoad : List Request :=
  [.load askingProgram, .run 2, .load (List.replicate 3585 0)]

/-- A supply of keys that nothing is drawn from. -/
def idleSupply : Random.Supply := ⟨fun _ => Vector.replicate 8 0, 0⟩

set_option maxRecDepth 100000 in
/-- After the refusal a reset starts the first program again, and another load its own. -/
theorem restart_is_boot_after_refused_load :
    let m := (powerOn ⟨1, some 8⟩ idleSupply).serveAll refusedLoad
    m.isWaiting = true ∧
      m.reset.machine = (boot ⟨1, some 8⟩ idleSupply askingProgram).machine ∧
      m.loadedBy (.load [0x12, 0x00]) = some [0x12, 0x00] ∧
      (m.serve (.load [0x12, 0x00])).machine =
        (boot ⟨1, some 8⟩ idleSupply [0x12, 0x00]).machine := by
  intro m
  obtain ⟨hwait, himage, hloaded⟩ : m.isWaiting = true ∧
      (powerOn ⟨1, some 8⟩ idleSupply).lastImage [] refusedLoad = askingProgram ∧
      m.loadedBy (.load [0x12, 0x00]) = some [0x12, 0x00] := by decide +kernel
  obtain ⟨-, hreset, hload⟩ := restart_is_boot ⟨1, some 8⟩ idleSupply refusedLoad
  rw [himage] at hreset
  exact ⟨hwait, hreset.seeded 8 rfl, hloaded, (hload _ _ hloaded).seeded 8 rfl⟩

end Machine

end Chip8VM
