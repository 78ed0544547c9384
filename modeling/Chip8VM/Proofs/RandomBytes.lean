import Chip8VM.Proofs.PowerOn

/-!
# Random bytes come in order

A machine with a seed takes its random bytes from one stream, and only an instruction `random`
takes one, when its cycle is completed. So since a power-on the rolls of a machine, the
completed instructions `random` in order, are served with the words of the stream in order
(`Rolled`), whatever was asked in between and whatever bits of a byte an instruction keeps.

A load or a reset that succeeds begins the stream again, and no other request does.
`random_bytes_in_order` puts this together.
-/

namespace Chip8VM

namespace Instruction

/-- Whether an instruction takes a random byte. -/
def rolls : Instruction → Bool
  | random _ _ => true
  | _ => false

/-- Every other instruction leaves the random bytes alone. -/
theorem execute_stream {i : Instruction} (hi : i.rolls = false) (g : Guest) :
    (i.execute g).2.random = g.random := by
  cases i
  case random => cases hi
  case ret | call | draw | storeDecimal | storeRegisters | loadRegisters =>
    exact Guest.attempt_snd_frame Guest.random fun _ => rfl
  all_goals rfl

end Instruction

namespace Machine

/-! ## Rolls -/

/-- What a completed instruction `random` did. -/
structure Roll where
  /-- The bits that it keeps of the random byte. -/
  mask : UInt8
  /-- The byte that it leaves in its register. -/
  left : UInt8

/-- The roll of the cycle that begins, if it completes an instruction `random`. -/
def roll? (m : Machine) : Option Roll :=
  match m.completed with
  | some ⟨_, .random x kk, _⟩ => some ⟨kk, m.cycle.machine.guest.register x⟩
  | _ => none

/-- The rolls of a history, in order. -/
def rollsIn (m : Machine) (history : List Request) : List Roll :=
  (m.momentsIn history).flatMap (·.roll?.toList)

/-- A roll takes the next byte and leaves what its mask keeps of it. -/
theorem Completes.roll {m : Machine} {x : UInt64} {kk : UInt8} (h : m.Completes (.random x kk)) :
    m.roll? = some ⟨kk, m.guest.random.byte &&& kk⟩ ∧
      m.cycle.machine.guest.random = m.guest.random.rest := by
  obtain ⟨delay, sound, hguest⟩ := h.exists_timers
  have hleft : m.cycle.machine.guest.register x = m.guest.random.byte &&& kk := by
    rw [hguest]
    exact Vector.getElem_set_self _
  refine ⟨?_, ?_⟩
  · simp only [roll?, h.completed, hleft]
  · rw [hguest]
    rfl

/-- Every other cycle takes none. -/
theorem Completes.no_roll {m : Machine} {i : Instruction} (h : m.Completes i)
    (hi : i.rolls = false) :
    m.roll? = none ∧ m.cycle.machine.guest.random = m.guest.random := by
  constructor
  · rw [roll?, h.completed]
    cases i
    case random => cases hi
    all_goals rfl
  · obtain ⟨delay, sound, hguest⟩ := h.exists_timers
    rw [hguest]
    exact Instruction.execute_stream hi m.ahead

/-! ## Stretches -/

/-- What holds of the random bytes over a stretch that began with this stream and had these
rolls: as many words are gone as there were rolls, each to one roll, in order. -/
structure Rolled (start : Random.Stream) (m : Machine) (rolls : List Roll) : Prop where
  stream : m.guest.random = ⟨start.key, start.drawn + rolls.length⟩
  left : ∀ k roll, rolls[k]? = some roll →
    roll.left = (Random.word start.key (start.drawn + k)).toUInt8 &&& roll.mask

theorem rolled_nil (m : Machine) : Rolled m.guest.random m [] :=
  ⟨rfl, fun _ _ hroll => nomatch hroll⟩

theorem Rolled.cycle {start : Random.Stream} {m : Machine} {rolls : List Roll}
    (h : Rolled start m rolls) : Rolled start m.cycle.machine (rolls ++ m.roll?.toList) := by
  -- A cycle without a roll leaves both the stream and the list of rolls as they are.
  have hsame : m.roll? = none → m.cycle.machine.guest.random = m.guest.random →
      Rolled start m.cycle.machine (rolls ++ m.roll?.toList) := by
    intro hnone hrandom
    rw [hnone, Option.toList_none, List.append_nil]
    exact ⟨hrandom.trans h.stream, h.left⟩
  rcases m.completed_cases with ⟨hnone, pc, hmachine⟩ | ⟨i, hi⟩
  · refine hsame (by rw [roll?, hnone]) ?_
    rw [hmachine]
    rfl
  · by_cases hrolls : i.rolls = false
    · obtain ⟨hnone, hrandom⟩ := hi.no_roll hrolls
      exact hsame hnone hrandom
    · cases i
      case random x kk =>
        obtain ⟨hroll, hrandom⟩ := hi.roll
        rw [hroll, Option.toList_some]
        constructor
        · rw [hrandom, h.stream, List.length_append]
          rfl
        · intro k roll hk
          rcases Nat.lt_or_ge k rolls.length with hbefore | hlast
          · rw [List.getElem?_append_left hbefore] at hk
            exact h.left k roll hk
          · rw [List.getElem?_append_right hlast, List.getElem?_singleton] at hk
            split at hk
            · obtain rfl := Option.some.inj hk
              obtain rfl : k = rolls.length := by omega
              rw [Random.Stream.byte, h.stream]
            · cases hk
      all_goals exact absurd rfl hrolls

/-- Over a stretch every roll is served with the next word of the stream. -/
theorem Sound.rolled_serveAll {m : Machine} (h : m.Sound) {stretch : List Request}
    (hstretch : m.Uninterrupted stretch) :
    Rolled m.guest.random (m.serveAll stretch) (m.rollsIn stretch) :=
  moments_invariant (P := Rolled m.guest.random) (fun _ _ h => h.cycle)
    (fun _ _ _ _ _ h => ⟨h.stream, h.left⟩) h hstretch m.rolled_nil

/-! ## Power-ons -/

/-- With a seed the stream of a power-on is the one of the seed, from its first word. -/
theorem PoweredOn.random_eq {m : Machine} (h : m.PoweredOn) {seed : UInt64}
    (hseed : m.settings.seed = some seed) : m.guest.random = .start (.ofSeed seed) := by
  obtain ⟨before, program, memory, -, rfl⟩ := h.eq_restart
  have hsettings : before.settings.seed = some seed := hseed
  show nextStream before.settings before.supply = _
  rw [nextStream, hsettings]

/-- Of a machine with a seed: Since a power-on the `k`-th instruction `random` that it
completes, counted from zero, leaves in its register what its mask keeps of the low byte of
the `k`-th word of the seed's stream. A request that starts the machine over begins the stream
again, and a reset does; every other request takes as many words as it has rolls, and none if
it runs no cycles, as a load that fails. -/
theorem random_bytes_in_order :
    (∀ (m : Machine) (seed : UInt64) (stretch : List Request), m.PoweredOn →
      m.settings.seed = some seed → m.Uninterrupted stretch →
      ∀ k roll, (m.rollsIn stretch)[k]? = some roll →
        roll.left = (Random.word (.ofSeed seed) k).toUInt8 &&& roll.mask) ∧
    ∀ (m : Machine) (seed : UInt64) (request : Request), Reachable m →
      m.settings.seed = some seed →
      let random := m.guest.random
      let after := (m.serve request).machine.guest.random
      (m.startsOver request = true → after = ⟨.ofSeed seed, 0⟩) ∧
        m.startsOver .reset = true ∧
        (m.startsOver request = false →
          after = ⟨random.key, random.drawn + (m.rollsIn [request]).length⟩) ∧
        (request.cycles = false → m.rollsIn [request] = []) := by
  constructor
  · intro m seed stretch hm hseed hstretch k roll hroll
    have hleft := (hm.sound.rolled_serveAll hstretch).left k roll hroll
    rw [hm.random_eq hseed, Random.Stream.start, Nat.zero_add] at hleft
    exact hleft
  · intro m seed request hm hseed random after
    refine ⟨?_, hm.sound.startsOver_reset, ?_, ?_⟩
    · intro hstart
      have hsettings : (m.serve request).machine.settings.seed = some seed := by
        rw [serve_settings]
        exact hseed
      exact (PoweredOn.startedOver hstart).random_eq hsettings
    · intro hnot
      exact (hm.sound.rolled_serveAll
        (show m.Uninterrupted [request] from ⟨hnot, trivial⟩)).stream
    · intro hquiet
      rw [rollsIn, momentsIn, momentsOf_of_quiet hquiet, momentsIn]
      rfl

/-- A program that rolls and keeps nothing, waits for a key, and rolls again. -/
def rollingProgram : List UInt8 := [0xC0, 0x00, 0xF2, 0x0A, 0xC1, 0xFF]

/-- A machine that has just loaded this program. -/
def rolling : Machine := ((powerOn ⟨1, some 8⟩ idleSupply).serve (.load rollingProgram)).machine

/-- Some requests, among them a load that fails, with which it comes to its second roll. -/
def rollingTwice : List Request :=
  [.run 4, .load (List.replicate 3585 0), .takeFrame, .answerKey 7, .cycle]

set_option maxRecDepth 100000 in
/-- The second roll leaves the low byte of the second word, and a reset after the first begins
the stream again. -/
theorem random_bytes_in_order_of_seed_eight :
    (∃ roll, (rolling.rollsIn rollingTwice)[1]? = some roll ∧ roll.mask = 0xFF ∧ roll.left = 3) ∧
      (rolling.serve (.run 1)).machine.guest.random = ⟨.ofSeed 8, 1⟩ ∧
      ((rolling.serve (.run 1)).machine.serve .reset).machine.guest.random = ⟨.ofSeed 8, 0⟩ := by
  obtain ⟨hleft, hserve⟩ := random_bytes_in_order
  obtain ⟨hstart, hrefused, hmask, hword, hone, hrandom⟩ :
      (powerOn ⟨1, some 8⟩ idleSupply).startsOver (.load rollingProgram) = true ∧
        ((rolling.serve (.run 4)).machine.startsOver (.load (List.replicate 3585 0))) = false ∧
        ((rolling.rollsIn rollingTwice)[1]?).map Roll.mask = some 0xFF ∧
        (Random.word (.ofSeed 8) 1).toUInt8 = 3 ∧
        (rolling.rollsIn [.run 1]).length = 1 ∧
        rolling.guest.random = ⟨.ofSeed 8, 0⟩ := by decide +kernel
  have hreach : Reachable rolling := (reachable_powerOn _ _).serve _
  obtain ⟨roll, hroll, hmask⟩ := Option.map_eq_some_iff.1 hmask
  refine ⟨⟨roll, hroll, hmask, ?_⟩, ?_, ?_⟩
  · rw [hleft rolling 8 rollingTwice (.startedOver hstart) rfl
      ⟨rfl, hrefused, rfl, rfl, rfl, trivial⟩ 1 roll hroll, hmask, hword]
    rfl
  · obtain ⟨-, -, hafter, -⟩ := hserve rolling 8 (.run 1) hreach rfl
    rw [hone, hrandom] at hafter
    exact hafter rfl
  · obtain ⟨hagain, hreset, -, -⟩ :=
      hserve (rolling.serve (.run 1)).machine 8 .reset (hreach.serve _) rfl
    exact hagain hreset

end Machine

end Chip8VM
