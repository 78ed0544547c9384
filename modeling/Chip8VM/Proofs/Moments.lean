import Chip8VM.Proofs.Handling
import Chip8VM.Proofs.Turns

/-!
# Moments of a run

A `Moment` tells how far a run has come: which frames are over, and which events of the next
frame have been handled. `Session.upTo` is the run up to a moment; if that has not ended, the
run goes on from there with another event, or with the cycles and the picture of the frame
(`upTo_hear`, `upTo_turn`). When all events of a frame have been handled, its cycles start.

What events, cycles and pictures change of a session is said once (`Session.handle_frame`,
`Session.advance_frame`, `Session.refresh_frame`). `Moment.Passes` is the passing of time with the
events in between, and what single events and single frames keep is kept as time passes
(`passes_invariant`). `run_of_upTo` says that a run comes to each moment of its script and goes on
from there. `Kept` is for what holds also of a run that has ended: what each step of a run keeps of
the session and of all calls so far, a whole run keeps (`Kept.play`). Both are about machines that
some history leads to, and a run has no others (`reachable_opened`, `reachable_kept`).
-/

namespace Chip8VM.Host

open Machine

/-! ## Steps of a turn -/

namespace Turn

variable {turn : Turn} {next : Session → Turn}

theorem andThen_still (turn : Turn) : (turn.andThen fun s => { session := s }) = turn := by
  cases h : turn.ending with
  | some ending => rw [andThen_of_some h]
  | none =>
    rw [andThen_of_none h, List.append_nil, List.append_nil, ← h]

/-- Turns that follow each other end the run as the first of them does that ends it. -/
theorem ending_andThen (turn : Turn) (next : Session → Turn) :
    (turn.andThen next).ending = turn.ending.or (next turn.session).ending := by
  cases h : turn.ending with
  | some ending =>
    rw [andThen_of_some h, h]
    rfl
  | none =>
    rw [andThen_of_none h]
    rfl

theorem ending_andThen_eq_none_iff :
    (turn.andThen next).ending = none ↔
      turn.ending = none ∧ (next turn.session).ending = none := by
  rw [ending_andThen, Option.or_eq_none_iff]

theorem session_andThen (h : turn.ending = none) :
    (turn.andThen next).session = (next turn.session).session := by
  rw [andThen_of_none h]

end Turn

/-! ## What a run keeps -/

/-- What every step of a run keeps of the session and of the calls made so far, whether or not
the step ends the run. -/
structure Kept (P : Session → List Call → Prop) : Prop where
  poll : ∀ {s calls}, P s calls → P s (calls ++ [.poll])
  handle : ∀ {s calls} event, Reachable s.machine → P s calls →
    P (s.handle event).session (calls ++ (s.handle event).calls)
  advance : ∀ {s calls}, Reachable s.machine → P s calls →
    P s.advance.session (calls ++ s.advance.calls)
  refresh : ∀ {s calls}, P s calls → P s.refresh.session (calls ++ s.refresh.calls)

/-- What holds after a turn, of the session and of the calls made before the turn and in it. -/
def Turn.Gives (turn : Turn) (before : List Call) (P : Session → List Call → Prop) : Prop :=
  P turn.session (before ++ turn.calls)

theorem Turn.Gives.andThen {turn : Turn} {next : Session → Turn} {before : List Call}
    {P : Session → List Call → Prop} (h : turn.Gives before P)
    (hnext : ∀ s calls, P s calls → (next s).Gives calls P) :
    (turn.andThen next).Gives before P := by
  cases hending : turn.ending with
  | some ending =>
    rw [andThen_of_some hending]
    exact h
  | none =>
    rw [andThen_of_none hending]
    have hafter := hnext turn.session (before ++ turn.calls) h
    rw [Gives, List.append_assoc] at hafter
    exact hafter

theorem Turn.gives_still {s : Session} {before : List Call} {P : Session → List Call → Prop}
    (h : P s before) : ({ session := s } : Turn).Gives before P := by
  rw [Gives, List.append_nil]
  exact h

/-- The cycles of a frame change nothing of a session but its machine and its sound. The user is
told at most of a fault, before the sound is switched. -/
theorem Session.advance_frame (s : Session) :
    ∃ notes active, (∀ call ∈ notes, ∃ pc fault, call = .note (.halting pc fault)) ∧
      s.advance.session =
        { s with
          machine := (s.machine.run s.cyclesPerFrame.toNat).machine
          sound := (s.sound.setActive s.devices active).1 } ∧
      s.advance.calls = notes ++ (s.sound.setActive s.devices active).2 := by
  unfold Session.advance
  dsimp only
  split
  · exact ⟨[], _, nofun, rfl, rfl⟩
  · exact ⟨[_], _, List.forall_mem_singleton.2 ⟨_, _, rfl⟩, rfl, rfl⟩

/-- A refresh changes nothing of a session but its machine and the number of its pictures. -/
theorem Session.refresh_frame (s : Session) :
    ∃ pictures, s.refresh.session =
      { s with machine := s.machine.takeFrame.2, pictures := pictures } := by
  unfold Session.refresh
  split
  · rename_i htake
    exact ⟨_, by rw [htake]⟩
  · rename_i htake
    exact ⟨_, by rw [htake]⟩

theorem Session.machine_advance (s : Session) :
    s.advance.session.machine = (s.machine.run s.cyclesPerFrame.toNat).machine := by
  obtain ⟨notes, active, -, hsession, -⟩ := s.advance_frame
  rw [hsession]

theorem Session.machine_refresh (s : Session) :
    s.refresh.session.machine = s.machine.takeFrame.2 := by
  obtain ⟨pictures, hsession⟩ := s.refresh_frame
  rw [hsession]

/-- The calls of the cycles of a frame. -/
theorem Session.forall_calls_advance {p : Call → Prop}
    (hhalting : ∀ pc fault, p (.note (.halting pc fault))) (hresume : p .resume)
    (hsamples : ∀ samples, p (.samples samples)) (hpause : p .pause) (s : Session) :
    ∀ call ∈ s.advance.calls, p call := by
  obtain ⟨notes, active, hnotes, -, hcalls⟩ := s.advance_frame
  rw [hcalls]
  refine List.forall_mem_append.2 ⟨fun call hcall => ?_,
    forall_calls_setActive hresume hsamples hpause s.devices s.sound active⟩
  obtain ⟨pc, fault, rfl⟩ := hnotes call hcall
  exact hhalting pc fault

/-- The calls of a refresh. -/
theorem Session.forall_calls_refresh {p : Call → Prop} (htexture : p .texture)
    (hcopy : ∀ texture, p (.copy texture)) (hpresent : p .present) (s : Session) :
    ∀ call ∈ s.refresh.calls, p call := by
  unfold Session.refresh
  split
  · exact nofun
  · exact forall_calls_render htexture hcopy hpresent _ _

theorem Session.reachable_advance {s : Session} (hm : Reachable s.machine) :
    Reachable s.advance.session.machine := by
  rw [s.machine_advance]
  exact hm.serve (.run s.cyclesPerFrame)

theorem Session.reachable_refresh {s : Session} (hm : Reachable s.machine) :
    Reachable s.refresh.session.machine := by
  rw [s.machine_refresh]
  exact hm.serve .takeFrame

/-- Histories lead to all machines of a run. -/
theorem reachable_kept : Kept fun s _ => Reachable s.machine where
  poll h := h
  handle event hm _ := Session.reachable_handle hm event
  advance hm _ := Session.reachable_advance hm
  refresh hm := Session.reachable_refresh hm

namespace Kept

variable {P : Session → List Call → Prop} {s : Session} {calls : List Call}

/-- A run keeps this together with having a machine that some history leads to. -/
theorem and_reachable (hP : Kept P) : Kept fun s calls => Reachable s.machine ∧ P s calls where
  poll h := ⟨h.1, hP.poll h.2⟩
  handle event hm h := ⟨Session.reachable_handle hm event, hP.handle event hm h.2⟩
  advance hm h := ⟨Session.reachable_advance hm, hP.advance hm h.2⟩
  refresh h := ⟨Session.reachable_refresh h.1, hP.refresh h.2⟩

theorem handleAll (hP : Kept P) (h : Reachable s.machine ∧ P s calls) (events : List Event) :
    (s.handleAll events).Gives calls fun s calls => Reachable s.machine ∧ P s calls := by
  induction events generalizing s calls with
  | nil => exact Turn.gives_still h
  | cons event rest ih =>
    have hfirst : (s.handle event).Gives calls fun s calls => Reachable s.machine ∧ P s calls :=
      hP.and_reachable.handle event h.1 h
    exact hfirst.andThen fun _ _ hs => ih hs

theorem listen (hP : Kept P) (h : Reachable s.machine ∧ P s calls) (events : List Event) :
    (s.listen events).Gives calls fun s calls => Reachable s.machine ∧ P s calls := by
  have hpoll : ({ session := s, calls := [.poll] } : Turn).Gives calls
      fun s calls => Reachable s.machine ∧ P s calls := hP.and_reachable.poll h
  exact hpoll.andThen fun _ _ hs => hP.handleAll hs events

theorem frame (hP : Kept P) (h : Reachable s.machine ∧ P s calls) (events : List Event) :
    (s.frame events).Gives calls fun s calls => Reachable s.machine ∧ P s calls := by
  have hadvance := (hP.listen h events).andThen fun _ _ hs => hP.and_reachable.advance hs.1 hs
  exact hadvance.andThen fun _ _ hs => hP.and_reachable.refresh hs

theorem frames (hP : Kept P) (h : Reachable s.machine ∧ P s calls) (script : List (List Event)) :
    (s.frames script).Gives calls fun s calls => Reachable s.machine ∧ P s calls := by
  induction script generalizing s calls with
  | nil => exact Turn.gives_still h
  | cons events rest ih => exact (hP.frame h events).andThen fun _ _ hs => ih hs

/-- What every step of a run keeps, the whole run keeps. -/
theorem play (hP : Kept P) (h : Reachable s.machine ∧ P s calls) (script : List (List Event)) :
    (s.play script).Gives calls fun s calls => Reachable s.machine ∧ P s calls :=
  (hP.frames h script).andThen fun _ _ hs => hP.frame hs [.quit]

end Kept

theorem Session.reachable_frame {s : Session} (hm : Reachable s.machine) (events : List Event) :
    Reachable (s.frame events).session.machine := by
  have hframe : (s.frame events).Gives [] _ := reachable_kept.frame ⟨hm, hm⟩ events
  exact hframe.1

theorem Session.reachable_frames {s : Session} (hm : Reachable s.machine)
    (script : List (List Event)) : Reachable (s.frames script).session.machine := by
  have hframes : (s.frames script).Gives [] _ := reachable_kept.frames ⟨hm, hm⟩ script
  exact hframes.1

/-! ## Moments -/

/-- How far a run has come. -/
structure Moment where
  /-- The frames that are over. -/
  past : List (List Event)
  /-- The events of the next frame that have been handled. -/
  handled : List Event

namespace Moment

/-- The events handled so far, in order. -/
def events (t : Moment) : List Event := t.past.flatten ++ t.handled

/-- The moment when one more event has been handled. -/
def hear (t : Moment) (event : Event) : Moment := { t with handled := t.handled ++ [event] }

/-- The moment when the frame is over. -/
def turn (t : Moment) : Moment := ⟨t.past ++ [t.handled], []⟩

/-- Time passes from one moment to another, with these events in between. -/
inductive Passes (t : Moment) : List Event → Moment → Prop where
  /-- No time passes. -/
  | still : Passes t [] t
  /-- Another event is handled. -/
  | hear {between : List Event} {t' : Moment} (h : Passes t between t') (event : Event) :
    Passes t (between ++ [event]) (t'.hear event)
  /-- The frame ends: its cycles run, and its picture is shown. -/
  | turn {between : List Event} {t' : Moment} (h : Passes t between t') : Passes t between t'.turn

theorem Passes.handle {t t' : Moment} {between : List Event} (h : t.Passes between t')
    (events : List Event) :
    t.Passes (between ++ events) ⟨t'.past, t'.handled ++ events⟩ := by
  induction events using List.reverseRecOn with
  | nil =>
    rw [List.append_nil, List.append_nil]
    exact h
  | append_singleton events event ih =>
    rw [← List.append_assoc, ← List.append_assoc]
    exact ih.hear event

theorem passes_past (past : List (List Event)) :
    Passes ⟨[], []⟩ past.flatten ⟨past, []⟩ := by
  induction past using List.reverseRecOn with
  | nil => exact .still
  | append_singleton past events ih =>
    rw [List.flatten_append, List.flatten_singleton]
    exact (ih.handle events).turn

/-- Every moment comes after the beginning, with its events in between. -/
theorem passes_events (t : Moment) : Passes ⟨[], []⟩ t.events t :=
  (passes_past t.past).handle t.handled

/-- Whether a run with this script comes to a moment, if nothing ends it before: after the
moment these events of the frame and these later frames are still to come. In the last frame of
a run the window is closed. -/
def Within (t : Moment) (script : List (List Event)) (rest : List Event)
    (later : List (List Event)) : Prop :=
  script ++ [[.quit]] = t.past ++ (t.handled ++ rest) :: later

end Moment

namespace Session

theorem handleAll_append (s : Session) (first rest : List Event) :
    s.handleAll (first ++ rest) = (s.handleAll first).andThen fun s => s.handleAll rest := by
  induction first generalizing s with
  | nil =>
    rw [List.nil_append, handleAll, Turn.andThen_of_none rfl]
    rfl
  | cons event first ih =>
    rw [List.cons_append, handleAll, handleAll, Turn.andThen_assoc]
    congr 1
    funext s
    exact ih s

theorem handleAll_singleton (s : Session) (event : Event) :
    s.handleAll [event] = s.handle event :=
  Turn.andThen_still _

theorem listen_append (s : Session) (first rest : List Event) :
    s.listen (first ++ rest) = (s.listen first).andThen fun s => s.handleAll rest := by
  rw [listen, listen, Turn.andThen_assoc]
  congr 1
  funext s
  exact s.handleAll_append first rest

theorem frames_singleton (s : Session) (events : List Event) :
    s.frames [events] = s.frame events :=
  Turn.andThen_still _

/-- A run up to a moment. -/
def upTo (s : Session) (t : Moment) : Turn :=
  (s.frames t.past).andThen fun s => s.listen t.handled

theorem upTo_hear (s : Session) (t : Moment) (event : Event) :
    s.upTo (t.hear event) = (s.upTo t).andThen fun s => s.handle event := by
  rw [upTo, upTo, Turn.andThen_assoc]
  congr 1
  funext s
  rw [Moment.hear, listen_append]
  congr 1
  funext s
  exact s.handleAll_singleton event

/-- After the cycles and the picture of a frame the next frame begins. -/
theorem upTo_turn (s : Session) (t : Moment) :
    s.upTo t.turn =
      (((s.upTo t).andThen advance).andThen refresh).andThen fun s => s.listen [] := by
  rw [upTo, upTo, Moment.turn, frames_append]
  simp only [Turn.andThen_assoc, frames_singleton, frame]

theorem listen_nil (s : Session) : s.listen [] = { session := s, calls := [.poll] } := rfl

/-- A run that has come to the end of a frame has come through its cycles and its picture. -/
theorem going_of_turn {s : Session} {t : Moment} (h : (s.upTo t.turn).ending = none) :
    (s.upTo t).ending = none ∧ (s.upTo t).session.advance.ending = none ∧
      (s.upTo t).session.advance.session.refresh.ending = none ∧
      (s.upTo t.turn).session = (s.upTo t).session.advance.session.refresh.session := by
  rw [upTo_turn] at h ⊢
  obtain ⟨hframe, -⟩ := Turn.ending_andThen_eq_none_iff.1 h
  obtain ⟨hcycles, hrefresh⟩ := Turn.ending_andThen_eq_none_iff.1 hframe
  obtain ⟨hgoing, hadvance⟩ := Turn.ending_andThen_eq_none_iff.1 hcycles
  rw [Turn.session_andThen hgoing] at hrefresh
  refine ⟨hgoing, hadvance, hrefresh, ?_⟩
  rw [Turn.session_andThen hframe, listen_nil, Turn.session_andThen hcycles,
    Turn.session_andThen hgoing]

theorem going_of_hear {s : Session} {t : Moment} {event : Event}
    (h : (s.upTo (t.hear event)).ending = none) :
    (s.upTo t).ending = none ∧ ((s.upTo t).session.handle event).ending = none ∧
      (s.upTo (t.hear event)).session = ((s.upTo t).session.handle event).session := by
  rw [upTo_hear] at h ⊢
  obtain ⟨hgoing, hhandle⟩ := Turn.ending_andThen_eq_none_iff.1 h
  exact ⟨hgoing, hhandle, Turn.session_andThen hgoing⟩

/-- What follows a moment: the other events of the frame, its cycles and its picture, and the
later frames. -/
def goOn (s : Session) (rest : List Event) (later : List (List Event)) : Turn :=
  (((s.handleAll rest).andThen advance).andThen refresh).andThen fun s => s.frames later

theorem play_eq_frames (s : Session) (script : List (List Event)) :
    s.play script = s.frames (script ++ [[.quit]]) := by
  simp only [play, frames_append, frames_singleton]

theorem play_of_upTo (s : Session) {t : Moment} {script : List (List Event)} {rest : List Event}
    {later : List (List Event)} (h : t.Within script rest later) :
    s.play script = (s.upTo t).andThen fun s => s.goOn rest later := by
  rw [play_eq_frames, h, frames_append, upTo, Turn.andThen_assoc]
  congr 1
  funext s
  rw [frames, frame, listen_append]
  simp only [goOn, Turn.andThen_assoc]

end Session

/-! ## As time passes -/

section

variable {first : Session} {t t' : Moment} {between : List Event}

/-- What every step of a run keeps holds at every moment. -/
theorem Kept.upTo {P : Session → List Call → Prop} (hP : Kept P) {calls : List Call}
    (h : Reachable first.machine ∧ P first calls) (t : Moment) :
    (first.upTo t).Gives calls fun s calls => Reachable s.machine ∧ P s calls :=
  (hP.frames h t.past).andThen fun _ _ hs => hP.listen hs t.handled

/-- Histories lead to the machine of a run at every moment. -/
theorem reachable_upTo (hm : Reachable first.machine) (t : Moment) :
    Reachable (first.upTo t).session.machine := by
  have hupTo : (first.upTo t).Gives [] _ := reachable_kept.upTo ⟨hm, hm⟩ t
  exact hupTo.1

/-- What single events and single frames keep, of the session and of the events that have been
handled, is kept as time passes. -/
theorem passes_invariant {P : Session → List Event → Prop} (hm : Reachable first.machine)
    (handle : ∀ s seen event, Reachable s.machine → P s seen → (s.handle event).ending = none →
      P (s.handle event).session (seen ++ [event]))
    (turn : ∀ s seen, P s seen → s.advance.ending = none →
      P s.advance.session.refresh.session seen)
    (h : t.Passes between t') (hgoing : (first.upTo t').ending = none)
    (hstart : P (first.upTo t).session []) : P (first.upTo t').session between := by
  induction h with
  | still => exact hstart
  | hear _ event ih =>
    obtain ⟨hbefore, hhandle, hsession⟩ := Session.going_of_hear hgoing
    rw [hsession]
    exact handle _ _ event (reachable_upTo hm _) (ih hbefore) hhandle
  | turn _ ih =>
    obtain ⟨hbefore, hadvance, -, hsession⟩ := Session.going_of_turn hgoing
    rw [hsession]
    exact turn _ _ (ih hbefore) hadvance

end

/-! ## Runs -/

section

variable {arguments : Arguments} {rom : Except String Rom.Source} {devices : Devices}
  {supply : Random.Supply} {first : Session} {opening : List Call}

/-- A run begins with a machine that has loaded its program. -/
theorem reachable_opened (h : opened arguments rom devices supply = some (first, opening)) :
    Reachable first.machine := by
  obtain ⟨source, -, -, hstart, -⟩ := eq_of_opened h
  obtain ⟨sound, -, rfl⟩ := Session.start_eq hstart
  exact (reachable_powerOn _ _).serve (.loadRom source)

/-- It begins with no key down and no register waiting. -/
theorem keypad_opened (h : opened arguments rom devices supply = some (first, opening)) :
    first.machine.guest.keypad = .powerOn := by
  obtain ⟨source, -, hload, hstart, -⟩ := eq_of_opened h
  obtain ⟨sound, -, rfl⟩ := Session.start_eq hstart
  rcases starts_loadRom (powerOn (Session.settings arguments) supply) source with
    ⟨fault, heq⟩ | ⟨memory, log, -, heq⟩
  · rw [heq] at hload
    cases hload
  · dsimp only
    rw [heq]
    rfl

/-- What every step of a run and a last note keep holds at the end, of all calls of the run. -/
theorem Kept.run {P : Session → List Call → Prop} (hP : Kept P)
    (hquit : ∀ s calls, P s calls → P s (calls ++ [.note .quitting]))
    (h : opened arguments rom devices supply = some (first, opening)) (hfirst : P first opening)
    (script : List (List Event)) :
    P (first.play script).session (run arguments rom devices supply script).calls := by
  have hplay : P (first.play script).session (opening ++ (first.play script).calls) :=
    (hP.play ⟨reachable_opened h, hfirst⟩ script).2
  rw [run_calls_of_opened h]
  unfold Turn.report
  split
  · rw [← List.append_assoc]
    exact hquit _ _ hplay
  · rw [← List.append_assoc]
    exact hquit _ _ hplay
  · exact hplay
  · exact hplay

/-- A run comes to each of its moments, and goes on from there. -/
theorem run_of_upTo (h : opened arguments rom devices supply = some (first, opening)) :
    ∃ loaded, ∀ (t : Moment) script rest later, t.Within script rest later →
      run arguments rom devices supply script =
        ((first.upTo t).andThen fun s => s.goOn rest later).report.after opening loaded := by
  obtain ⟨loaded, hrun⟩ := run_of_opened h
  refine ⟨loaded, ?_⟩
  intro t script rest later hwithin
  rw [hrun, Session.play_of_upTo first hwithin]

end

end Chip8VM.Host
