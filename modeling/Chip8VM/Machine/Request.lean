import Chip8VM.Machine

/-!
# Requests and histories

Everything that can be asked of a machine, as a value. A history is a list of requests,
answered one after the other (`Machine.serveAll`); faults do not end it. The machines
that some history leads to from power-on are the `Reachable` ones, and a machine that is
reachable stays so under every history (`Reachable.serveAll`).
-/

namespace Chip8VM.Machine

/-! ## Requests -/

/-- Something that can be asked of a machine. -/
inductive Request where
  /-- Load this program. -/
  | load (program : List UInt8)
  /-- Load the program that this source gives. -/
  | loadRom (source : Rom.Source)
  /-- Start the loaded program again. -/
  | reset
  /-- Execute one instruction. -/
  | cycle
  /-- Execute so many instructions. -/
  | run (n : UInt32)
  /-- Take note that a key went down or up. -/
  | setKey (key : UInt8) (pressed : Bool)
  /-- Hand a key to the register that waits for one. -/
  | answerKey (key : UInt8)
  /-- Hand out the frame if it changed. -/
  | takeFrame

/-- A reply without a value, as that of a request that hands out no frame. -/
def Reply.noFrame (reply : Reply Unit) : Reply (Option Frame) :=
  { reply with result := reply.result.map fun _ => none }

/-- The reply to a request. Only a request for the frame is answered with one. -/
def serve (m : Machine) : Request → Reply (Option Frame)
  | .load program => (m.load program).noFrame
  | .loadRom source => (m.loadRom source).noFrame
  | .reset => m.reset.noFrame
  | .cycle => m.cycle.noFrame
  | .run n => (m.run n.toNat).noFrame
  | .setKey key pressed => (m.setKey key pressed).noFrame
  | .answerKey key => (m.answerKey key).noFrame
  | .takeFrame => ⟨.ok m.takeFrame.1, m.takeFrame.2, []⟩

/-! ## Histories -/

/-- The machine after a history. -/
def serveAll (m : Machine) (history : List Request) : Machine :=
  history.foldl (fun m request => (m.serve request).machine) m

/-- The replies to a history, in order. -/
def replies (m : Machine) : List Request → List (Reply (Option Frame))
  | [] => []
  | request :: rest => m.serve request :: (m.serve request).machine.replies rest

theorem serveAll_cons (m : Machine) (request : Request) (rest : List Request) :
    m.serveAll (request :: rest) = (m.serve request).machine.serveAll rest := rfl

theorem serveAll_append (m : Machine) (first rest : List Request) :
    m.serveAll (first ++ rest) = (m.serveAll first).serveAll rest :=
  List.foldl_append

/-- Whether some history leads to this machine from power-on. -/
def Reachable (m : Machine) : Prop :=
  ∃ settings supply history, m = (powerOn settings supply).serveAll history

theorem reachable_powerOn (settings : Settings) (supply : Random.Supply) :
    Reachable (powerOn settings supply) :=
  ⟨settings, supply, [], rfl⟩

theorem Reachable.serveAll {m : Machine} (h : Reachable m) (history : List Request) :
    Reachable (m.serveAll history) := by
  obtain ⟨settings, supply, before, rfl⟩ := h
  exact ⟨settings, supply, before ++ history, (serveAll_append _ _ _).symm⟩

theorem Reachable.serve {m : Machine} (h : Reachable m) (request : Request) :
    Reachable (m.serve request).machine :=
  h.serveAll [request]

/-- What holds at power-on and is kept by every request holds of every reachable
machine. -/
theorem Reachable.induction {P : Machine → Prop} {m : Machine} (h : Reachable m)
    (start : ∀ settings supply, P (powerOn settings supply))
    (step : ∀ m request, P m → P (m.serve request).machine) : P m := by
  obtain ⟨settings, supply, history, rfl⟩ := h
  have kept : ∀ (history : List Request) (m : Machine), P m → P (m.serveAll history) := by
    intro history
    induction history with
    | nil => exact fun m hm => hm
    | cons request rest ih => exact fun m hm => ih _ (step m request hm)
  exact kept history _ (start settings supply)

end Chip8VM.Machine
