import Chip8VM.Machine.Request
import Chip8VM.Proofs.Pixels

/-!
# Strict evaluation

The machine once more, for an evaluator that stops where a careful one would: an index
that its array does not have, a sum that does not fit its word and a difference below zero
have no value (`none`), and neither has anything that needs one. A fault of the guest is a
value like any other.

So the registers, the stack and ranges of memory are reached only through `put`, `between`,
`putBetween` and `[·]?`, and the screen pixel by pixel, on bytes that have to stay zero or
one. What is counted goes through `fit` and `less`: the stack pointer up and down, the
cycle counter, the row and the column of a pixel, the sum of two registers, the place of a
glyph, the address after the first byte of a word, and every step of the program counter,
which may not wrap. Where an operation of the machine cannot stop, it stands here as it is.
-/

namespace Chip8VM.Strict

/-! ## Numbers and arrays -/

/-- A number, if a word of so many bits holds it. -/
def fit (width n : Nat) : Option Nat := if n < 2 ^ width then some n else none

/-- A difference, unless it lies below zero. -/
def less (a b : Nat) : Option Nat := if b ≤ a then some (a - b) else none

section

variable {α : Type} {n : Nat}

/-- An array with another element at an index that it has. -/
def put (v : Vector α n) (k : Nat) (a : α) : Option (Vector α n) :=
  if h : k < n then some (v.set k a) else none

/-- The elements of an array from one bound up to another. -/
def between (v : Vector α n) (start stop : Nat) : Option (List α) :=
  if start ≤ stop ∧ stop ≤ n then some ((v.toList.drop start).take (stop - start)) else none

/-- An array with other elements between two bounds, exactly as many as fit there. -/
def putBetween (v : Vector α n) (start stop : Nat) (new : List α) : Option (Vector α n) :=
  if start ≤ stop ∧ stop ≤ n ∧ new.length = stop - start then
    some (Vector.ofFn fun k => if start ≤ k.val then new[k.val - start]?.getD v[k] else v[k])
  else none

theorem fit_eq {width n : Nat} (h : n < 2 ^ width) : fit width n = some n := if_pos h

theorem less_eq {a b : Nat} (h : b ≤ a) : less a b = some (a - b) := if_pos h

theorem put_eq (v : Vector α n) {k : Nat} (hk : k < n) (a : α) : put v k a = some (v.set k a) :=
  dif_pos hk

theorem between_eq (v : Vector α n) {start stop : Nat} (hstart : start ≤ stop)
    (hstop : stop ≤ n) :
    between v start stop = some ((v.toList.drop start).take (stop - start)) :=
  if_pos ⟨hstart, hstop⟩

theorem putBetween_eq (v : Vector α n) {start stop : Nat} {new : List α} (hstart : start ≤ stop)
    (hstop : stop ≤ n) (hlen : new.length = stop - start) :
    putBetween v start stop new =
      some (Vector.ofFn fun k =>
        if start ≤ k.val then new[k.val - start]?.getD v[k] else v[k]) :=
  if_pos ⟨hstart, hstop, hlen⟩

/-- Elements that end inside an array stand where they were put, and the others stay. -/
theorem exists_putBetween (v : Vector α n) {start : Nat} {new : List α}
    (h : start + new.length ≤ n) :
    ∃ w, putBetween v start (start + new.length) new = some w ∧
      ∀ k < n, w[k]? = if start ≤ k ∧ k < start + new.length then new[k - start]? else v[k]? := by
  refine ⟨_, putBetween_eq v (Nat.le_add_right _ _) h (by omega), fun k hk => ?_⟩
  rw [Vector.getElem?_ofFn, dif_pos hk, Vector.getElem?_eq_getElem hk]
  by_cases hstart : start ≤ k
  · rw [if_pos hstart]
    by_cases hin : k - start < new.length
    · rw [if_pos ⟨hstart, by omega⟩, List.getElem?_eq_getElem hin, Option.getD_some]
    · rw [if_neg fun hboth => hin (by omega), List.getElem?_eq_none (Nat.not_lt.1 hin),
        Option.getD_none]
      rfl
  · rw [if_neg hstart, if_neg fun hboth => hstart hboth.1]
    rfl

end

/-! ## The processor -/

/-- Reads the register of an operand. -/
def register (p : Processor) (x : UInt64) : Option UInt8 := p.v[(x &&& 0xF).toNat]?

/-- Writes the register of an operand. -/
def setRegister (p : Processor) (x : UInt64) (byte : UInt8) : Option Processor := do
  return { p with v := ← put p.v (x &&& 0xF).toNat byte }

/-- Writes one or zero to the flag. -/
def setFlag (p : Processor) (flag : Bool) : Option Processor := do
  return { p with v := ← put p.v 0xF (if flag then 1 else 0) }

/-- Sets the flag, then writes a register. -/
def setWithFlag (p : Processor) (x : UInt64) (byte : UInt8) (flag : Bool) : Option Processor := do
  setRegister (← setFlag p flag) x byte

/-- The registers `V0` to that of an operand. -/
def upTo (p : Processor) (x : UInt64) : Option (List UInt8) := do
  between p.v 0 (← fit 64 ((x &&& 0xF).toNat + 1))

/-- Writes the registers `V0` to that of an operand. -/
def setFirst (p : Processor) (x : UInt64) (bytes : List UInt8) : Option Processor := do
  return { p with v := ← putBetween p.v 0 (← fit 64 ((x &&& 0xF).toNat + 1)) bytes }

/-- Passes over the next instruction. -/
def skip (p : Processor) : Option Processor := do
  return { p with pc := UInt16.ofNat (← fit 16 (p.pc.toNat + 2)) }

/-- Passes over the next instruction if the condition holds. -/
def skipIf (p : Processor) (condition : Bool) : Option Processor :=
  if condition then skip p else some p

/-- Continues at an address, to return here later. -/
def call (p : Processor) (address : UInt16) : Option (Except Fault Processor) :=
  if 16 ≤ p.sp.toNat then do
    return .error (.stackOverflow (UInt16.ofNat (← less p.pc.toNat 2)))
  else do
    let stack ← put p.stack p.sp.toNat p.pc
    let sp ← fit 8 (p.sp.toNat + 1)
    return .ok { p with stack := stack, sp := UInt8.ofNat sp, pc := address }

/-- Continues after the latest call that has not returned. -/
def ret (p : Processor) : Option (Except Fault Processor) :=
  if p.sp = 0 then do
    return .error (.stackUnderflow (UInt16.ofNat (← less p.pc.toNat 2)))
  else do
    let sp ← less p.sp.toNat 1
    let pc ← p.stack[sp]?
    return .ok { p with sp := UInt8.ofNat sp, pc := pc }

/-! ## Memory -/

/-- The bytes of a range. -/
def slice (m : Memory) (address length : UInt64) : Option (Except Fault (List UInt8)) :=
  match Memory.within address length with
  | .error fault => some (.error fault)
  | .ok () => do return .ok (← between m.bytes address.toNat (address + length).toNat)

/-- Writes bytes from an address on, all of them or none. -/
def store (m : Memory) (address : UInt64) (bytes : List UInt8) : Option (Except Fault Memory) :=
  let length := UInt64.ofNatClamp bytes.length
  match Memory.writable address length with
  | .error fault => some (.error fault)
  | .ok () => do
    return .ok ⟨← putBetween m.bytes address.toNat (address + length).toNat bytes⟩

/-- The word at an address, high byte first. -/
def readWord (m : Memory) (address : UInt64) : Option (Except Fault UInt16) :=
  match m.read address with
  | .error fault => some (.error fault)
  | .ok high => do
    let next ← fit 64 (address.toNat + 1)
    match m.read (UInt64.ofNat next) with
    | .error fault => return .error fault
    | .ok low => return .ok (high.toUInt16 <<< 8 ||| low.toUInt16)

/-- Memory with the font and nothing else. -/
def freshMemory : Option Memory := do
  return ⟨← putBetween (Vector.replicate 4096 0) 0 80 Font.sheet⟩

/-- Writes a program image where programs start. -/
def loadProgram (m : Memory) (program : List UInt8) : Option (Except Fault Memory) :=
  if maxProgramSize < program.length then some (.error (.programTooLarge program.length))
  else store m Memory.programStart program

/-! ## The screen -/

/-- Draws one bit of a byte, in row `y` and as far right of column `x` as the bit stands
in the byte. Also tells whether a lit pixel went dark, now or before. -/
def drawBit (x y : Nat) (byte : UInt8) (drawn : Levels × Bool) (bit : Nat) :
    Option (Levels × Bool) := do
  let column ← fit 64 (x + bit)
  let shift ← less 7 bit
  let row ← drawn.1[y]?
  let before ← row[column % 64]?
  let after := before ^^^ (byte >>> UInt8.ofNat shift &&& 1)
  let levels ← put drawn.1 y (← put row (column % 64) after)
  return (levels, drawn.2 || (before == 1 && after == 0))

/-- Draws a byte, bit by bit. -/
def drawRow (levels : Levels) (x y : Nat) (byte : UInt8) : Option (Levels × Bool) :=
  (List.range 8).foldlM (drawBit x (y % 32) byte) (levels, false)

/-- Draws the rows of a sprite from row `y + r` down. -/
def drawRows (x y : Nat) : Nat → List UInt8 → Levels × Bool → Option (Levels × Bool)
  | _, [], drawn => some drawn
  | r, byte :: rest, (levels, erased) => do
    let (levels, hit) ← drawRow levels x (← fit 64 (y + r)) byte
    drawRows x y (r + 1) rest (levels, erased || hit)

/-- Draws a sprite to column `Vx` of row `Vy`. -/
def drawSprite (g : Guest) (x y : UInt64) (sprite : List UInt8) : Option Guest := do
  let column ← register g.processor x
  let row ← register g.processor y
  let p ← setFlag g.processor false
  let (levels, erased) ← drawRows column.toNat row.toNat 0 sprite (g.screen.frame.levels, false)
  let frame ← Frame.ofLevels? levels
  let p ← setFlag p erased
  return { g with processor := p, screen := ⟨frame, g.screen.redraw || !sprite.isEmpty⟩ }

/-! ## Instructions -/

/-- The effect of an instruction. -/
def execute (i : Instruction) (g : Guest) : Option Guest.Outcome := do
  let p := g.processor
  let done (p : Processor) : Guest.Outcome := (.ok (), { g with processor := p })
  match i with
  | .clear => return (.ok (), { g with screen := g.screen.clear })
  | .ret => return g.attempt (← ret p) fun p => { g with processor := p }
  | .jump address => return done { p with pc := address }
  | .call address => return g.attempt (← call p address) fun p => { g with processor := p }
  | .skipEqByte x kk => return done (← skipIf p ((← register p x) == kk))
  | .skipNeByte x kk => return done (← skipIf p ((← register p x) != kk))
  | .skipEq x y => return done (← skipIf p ((← register p x) == (← register p y)))
  | .loadByte x kk => return done (← setRegister p x kk)
  | .addByte x kk => return done (← setRegister p x ((← register p x) + kk))
  | .copy x y => return done (← setRegister p x (← register p y))
  | .or x y => return done (← setRegister p x ((← register p x) ||| (← register p y)))
  | .and x y => return done (← setRegister p x ((← register p x) &&& (← register p y)))
  | .xor x y => return done (← setRegister p x ((← register p x) ^^^ (← register p y)))
  | .add x y =>
    let sum ← fit 16 ((← register p x).toNat + (← register p y).toNat)
    return done (← setWithFlag p x (UInt8.ofNat (sum % 256)) (0xFF < sum))
  | .sub x y =>
    let vx ← register p x
    let vy ← register p y
    return done (← setWithFlag p x (vx - vy) (vy < vx))
  | .shiftRight x =>
    let vx ← register p x
    return done (← setWithFlag p x (vx >>> 1) (vx &&& 0x01 == 0x01))
  | .subFrom x y =>
    let vx ← register p x
    let vy ← register p y
    return done (← setWithFlag p x (vy - vx) (vx < vy))
  | .shiftLeft x =>
    let vx ← register p x
    return done (← setWithFlag p x (vx <<< 1) (vx &&& 0x80 == 0x80))
  | .skipNe x y => return done (← skipIf p ((← register p x) != (← register p y)))
  | .setIndex address => return done { p with i := address }
  | .jumpBy address =>
    let pc ← fit 16 (address.toNat + (← register p 0).toNat)
    return done { p with pc := UInt16.ofNat pc }
  | .random x kk =>
    let p ← setRegister p x (g.random.byte &&& kk)
    return (.ok (), { g with processor := p, random := g.random.rest })
  | .draw x y n =>
    match ← slice g.memory p.i.toUInt64 n.toUInt64 with
    | .error fault => return (.error fault, g)
    | .ok sprite => return (.ok (), ← drawSprite g x y sprite)
  | .skipPressed x => return done (← skipIf p (g.keypad.isPressed (← register p x)))
  | .skipReleased x => return done (← skipIf p (!g.keypad.isPressed (← register p x)))
  | .readDelay x => return done (← setRegister p x p.delay)
  | .awaitKey x => return (.ok (), { g with keypad := g.keypad.await (x &&& 0xF) })
  | .setDelay x => return done { p with delay := ← register p x }
  | .setSound x => return done { p with sound := ← register p x }
  | .addIndex x => return done { p with i := p.i + (← register p x).toUInt16 }
  | .pointGlyph x =>
    let offset ← fit 16 (((← register p x) &&& 0x0F).toNat * 5)
    return done { p with i := UInt16.ofNat (← fit 16 (0 + offset)) }
  | .storeDecimal x =>
    let digits := Guest.decimal (← register p x)
    return g.attempt (← store g.memory p.i.toUInt64 digits) fun memory =>
      { g with memory := memory }
  | .storeRegisters x =>
    return g.attempt (← store g.memory p.i.toUInt64 (← upTo p x)) fun memory =>
      { g with memory := memory }
  | .loadRegisters x =>
    let length := UInt64.ofNat (← fit 64 ((x &&& 0xF).toNat + 1))
    match ← slice g.memory p.i.toUInt64 length with
    | .error fault => return (.error fault, g)
    | .ok bytes => return done (← setFirst p x bytes)

/-! ## Machines -/

/-- Counts a completed cycle, and ticks the timers when their period is over. -/
def countCycle (m : Machine) : Option Machine := do
  let counter ← fit 32 (m.counter.toNat + 1)
  if m.settings.timerPeriod.toNat ≤ counter then
    return { m with counter := 0, guest := { m.guest with processor := m.guest.processor.tick } }
  else return { m with counter := UInt32.ofNat counter }

/-- Executes the instruction `i`, the word at `pc`, with the program counter already past
it. -/
def perform (m : Machine) (pc word : UInt16) (i : Instruction) :
    Option (Machine.Reply Unit) := do
  let trace := Machine.Record.executing pc word i m.guest.processor.v m.guest.processor.i
  match ← execute i m.guest with
  | (.error fault, guest) =>
    return ⟨.error fault, { m with guest := guest }, [trace, .executeFailed pc i fault]⟩
  | (.ok (), guest) =>
    return ⟨.ok (), ← countCycle { m with guest := guest },
      if guest.keypad.isWaiting then [trace, .awaitingKey] else [trace]⟩

/-- Fetches, decodes and executes one instruction and counts it. -/
def cycle (m : Machine) : Option (Machine.Reply Unit) := do
  if m.isWaiting then return ⟨.ok (), m, []⟩
  else
    let pc := m.guest.processor.pc
    match ← readWord m.guest.memory pc.toUInt64 with
    | .error fault => return ⟨.error fault, m, [.fetchFailed pc fault]⟩
    | .ok word =>
      let m : Machine := { m with guest := { m.guest with processor := ← skip m.guest.processor } }
      match Instruction.decode word with
      | .error fault => return ⟨.error fault, m, [.decodeFailed pc fault]⟩
      | .ok i => perform m pc word i

/-- Runs cycles, up to the first fault. -/
def run (m : Machine) : Nat → Option (Machine.Reply Unit)
  | 0 => some ⟨.ok (), m, []⟩
  | n + 1 => do
    match ← cycle m with
    | ⟨.error fault, m', log⟩ => return ⟨.error fault, m', log⟩
    | ⟨.ok (), m', log⟩ =>
      let rest ← run m' n
      return { rest with log := log ++ rest.log }

/-- A machine without a program. -/
def powerOn (settings : Settings) (supply : Random.Supply) : Option Machine := do
  let m := Machine.powerOn settings supply
  return { m with guest := { m.guest with memory := ← freshMemory } }

/-- The machine without a program in memory. -/
def emptied (m : Machine) : Option Machine := do
  return { m with guest := { Guest.powerOn m.guest.random with memory := ← freshMemory } }

/-- Starts a program from power-on, and notes it down. If it does not fit, this machine is left. -/
def start (m left : Machine) (program : List UInt8) (note : Machine.Record) :
    Option (Machine.Reply Unit) := do
  match ← loadProgram (← freshMemory) program with
  | .error fault => return ⟨.error fault, left, []⟩
  | .ok memory => return ⟨.ok (), m.restart program memory, [note]⟩

/-- Hands a key to the register that waits for one, if any does. -/
def answerKey (m : Machine) (key : UInt8) : Option (Machine.Reply Unit) := do
  match m.guest.keypad.answer key with
  | .error fault => return ⟨.error fault, m, []⟩
  | .ok (none, keypad) => return ⟨.ok (), m.withKeypad keypad, []⟩
  | .ok (some register, keypad) =>
    let v ← put m.guest.processor.v register.toNat key
    let guest := { m.guest with keypad := keypad, processor := { m.guest.processor with v := v } }
    return ⟨.ok (), { m with guest := guest }, [.answered key register]⟩

open Machine in
/-- The reply to a request. -/
def serve (m : Machine) : Request → Option (Reply (Option Frame))
  | .load program => do return (← start m m program (.loaded program.length)).noFrame
  | .loadRom source =>
    match Rom.gather source with
    | .error reason => some ⟨.error (.unreadableProgram reason), m, []⟩
    | .ok program => do return (← start m m program (.loaded program.length)).noFrame
  | .reset => do return (← start m (← emptied m) m.program .reset).noFrame
  | .cycle => do return (← cycle m).noFrame
  | .run n => do return (← run m n.toNat).noFrame
  | .setKey key pressed => some (m.setKey key pressed).noFrame
  | .answerKey key => do return (← answerKey m key).noFrame
  | .takeFrame => some ⟨.ok m.takeFrame.1, m.takeFrame.2, []⟩

open Machine in
/-- The replies to a history, in order. -/
def replies (m : Machine) : List Request → Option (List (Reply (Option Frame)))
  | [] => some []
  | request :: rest => do
    let reply ← serve m request
    return reply :: (← replies reply.machine rest)

open Machine in
/-- The replies to a history from power-on. -/
def session (settings : Settings) (supply : Random.Supply) (history : List Request) :
    Option (List (Reply (Option Frame))) := do
  replies (← powerOn settings supply) history

end Chip8VM.Strict
