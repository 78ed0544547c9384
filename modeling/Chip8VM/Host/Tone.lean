/-!
# The tone

A wave is sampled phase by phase: a sample tells whether the phase lies in the high half,
and then the phase moves on (`Wave`). Samples are pulled in batches of any size, and the
phase goes on from one batch to the next, so a tone has no seam where one batch ends
(`pull_add`).

The machine's tone is a square wave of 440 Hz, with phases in 32-bit floats from zero to
one (`square`).
-/

namespace Chip8VM.Host

/-! ## Waves -/

/-- A sample of the tone. -/
inductive Sample where
  /-- A tenth of full volume. -/
  | high
  /-- A tenth of full volume, turned over. -/
  | low
  deriving DecidableEq

/-- How loud a sample is. -/
def Sample.volume : Sample → Float32
  | high => 0.1
  | low => -0.1

/-- A wave over phases. -/
structure Wave (Phase : Type) where
  /-- The sample in a phase. -/
  sample : Phase → Sample
  /-- The phase one sample later. -/
  advance : Phase → Phase

namespace Wave

variable {Phase : Type}

/-- Pulls `n` samples after those in `taken`, which are kept last first. -/
def pullOnto (w : Wave Phase) (taken : List Sample) : Nat → Phase → List Sample × Phase
  | 0, phase => (taken.reverse, phase)
  | n + 1, phase => pullOnto w (w.sample phase :: taken) n (w.advance phase)

/-- Pulls `n` samples from a phase on, and tells the phase afterwards. -/
def pull (w : Wave Phase) (n : Nat) (phase : Phase) : List Sample × Phase :=
  w.pullOnto [] n phase

/-- Pulls batches of samples, one after the other. -/
def pullAll (w : Wave Phase) : List Nat → Phase → List Sample × Phase
  | [], phase => ([], phase)
  | n :: rest, phase =>
    let (samples, between) := w.pull n phase
    let (others, last) := w.pullAll rest between
    (samples ++ others, last)

/-! ## Batches -/

theorem pullOnto_eq (w : Wave Phase) (taken : List Sample) (n : Nat) (phase : Phase) :
    w.pullOnto taken n phase = (taken.reverse ++ (w.pull n phase).1, (w.pull n phase).2) := by
  unfold pull
  induction n generalizing taken phase with
  | zero => simp [pullOnto]
  | succ n ih =>
    rw [pullOnto, pullOnto, ih, ih [w.sample phase]]
    simp

theorem pull_succ (w : Wave Phase) (n : Nat) (phase : Phase) :
    w.pull (n + 1) phase =
      (w.sample phase :: (w.pull n (w.advance phase)).1, (w.pull n (w.advance phase)).2) := by
  rw [pull, pullOnto, pullOnto_eq]
  simp

/-- A batch can be cut anywhere. -/
theorem pull_add (w : Wave Phase) (m n : Nat) (phase : Phase) :
    w.pull (m + n) phase =
      ((w.pull m phase).1 ++ (w.pull n (w.pull m phase).2).1,
        (w.pull n (w.pull m phase).2).2) := by
  induction m generalizing phase with
  | zero => simp [pull, pullOnto]
  | succ m ih =>
    rw [Nat.succ_add, pull_succ, ih, pull_succ]
    simp

end Wave

/-! ## The square wave -/

namespace Tone

/-- The samples a second that the sound device is asked for. -/
def sampleRate : Int := 44100

/-- The frequency of the tone. -/
def pitch : Float32 := 440

/-- What is left of a number without its whole part, with the sign of the number. Of an
infinite number nothing is left, not even a number. -/
def fraction (x : Float32) : Float32 := if x < 0 then x - x.ceil else x - x.floor

/-- The tone at so many samples a second: high in the first half of its phase. -/
def square (rate : Int) : Wave Float32 where
  sample phase := if phase < 0.5 then .high else .low
  advance phase := fraction (phase + pitch / Float32.ofInt rate)

end Tone

end Chip8VM.Host
