import Chip8VM.Proofs.KeyWait

/-!
# Loads and keys, all or nothing

A source gives some bytes with every read and then ends or breaks off. How the bytes are cut into
reads makes no difference (`Rom.gather_pieces`), and every source goes one of these ways
(`Rom.exists_pieces`).

A machine refuses images that do not fit, sources that break off and keys that the pad lacks, and
then it is as it was before: it keeps its program, its wait and its random bytes. So the requests
that are refused may be left out of every history (`serveAll_accepted`). `load_all_or_nothing`
puts this together.
-/

namespace Chip8VM

/-! ## Sources -/

namespace Rom

/-- Reads that give bytes come before everything that the rest of a source gives. -/
theorem gather_pieces {pieces : List (List UInt8)} (h : ∀ piece ∈ pieces, piece ≠ [])
    (rest : Source) :
    gather (pieces.map .bytes ++ rest) = (gather rest).map (pieces.flatten ++ ·) := by
  induction pieces with
  | nil => cases hrest : gather rest <;> simp [hrest, Except.map]
  | cons piece pieces ih =>
    obtain ⟨hpiece, hpieces⟩ := List.forall_mem_cons.1 h
    cases piece with
    | nil => exact absurd rfl hpiece
    | cons byte piece =>
      rw [List.map_cons, List.cons_append, gather, gatherOnto, gatherOnto_eq, ih hpieces]
      · cases gather rest with
        | error reason => rfl
        | ok bytes => simp [Except.map]
      · simp

/-- Every source gives some bytes with every read, and then has no more reads, or an empty one,
or one that fails. -/
theorem exists_pieces (source : Source) :
    ∃ pieces : List (List UInt8), (∀ piece ∈ pieces, piece ≠ []) ∧
      (source = pieces.map .bytes ∨ (∃ rest, source = pieces.map .bytes ++ .bytes [] :: rest) ∨
        ∃ reason rest, source = pieces.map .bytes ++ .failure reason :: rest) := by
  induction source with
  | nil => exact ⟨[], nofun, Or.inl rfl⟩
  | cons answer rest ih =>
    cases answer with
    | failure reason => exact ⟨[], nofun, Or.inr (Or.inr ⟨reason, rest, rfl⟩)⟩
    | bytes chunk =>
      by_cases hchunk : chunk = []
      · subst hchunk
        exact ⟨[], nofun, Or.inr (Or.inl ⟨rest, rfl⟩)⟩
      · obtain ⟨pieces, hpieces, hends⟩ := ih
        refine ⟨chunk :: pieces, List.forall_mem_cons.2 ⟨hchunk, hpieces⟩, ?_⟩
        rcases hends with rfl | ⟨later, rfl⟩ | ⟨reason, later, rfl⟩
        · exact Or.inl rfl
        · exact Or.inr (Or.inl ⟨later, rfl⟩)
        · exact Or.inr (Or.inr ⟨reason, later, rfl⟩)

end Rom

namespace Machine

/-! ## What is refused -/

/-- The reply to something that is refused: a fault, and the machine as it was. -/
def refuse (m : Machine) (fault : Fault) : Reply Unit := ⟨.error fault, m, []⟩

/-- A program image fits or it is refused. -/
theorem load_eq (m : Machine) (image : List UInt8) :
    (image.length ≤ maxProgramSize → ∃ memory,
      Memory.powerOn.loadProgram image = .ok memory ∧
        m.load image = ⟨.ok (), m.restart image memory, [.loaded image.length]⟩) ∧
    (maxProgramSize < image.length → m.load image = m.refuse (.programTooLarge image.length)) := by
  have hload := Memory.powerOn.loadProgram_eq image
  constructor
  · intro hfits
    rw [if_neg (Nat.not_lt.2 hfits)] at hload
    exact ⟨_, hload, by rw [load, hload]⟩
  · intro hlarge
    rw [if_pos hlarge] at hload
    rw [load, hload, refuse]

/-- What a source gives up to its end is loaded, and a source that breaks off is refused. -/
theorem loadRom_pieces (m : Machine) {pieces : List (List UInt8)}
    (h : ∀ piece ∈ pieces, piece ≠ []) :
    m.loadRom (pieces.map .bytes) = m.load pieces.flatten ∧
      ∀ rest, m.loadRom (pieces.map .bytes ++ .bytes [] :: rest) = m.load pieces.flatten ∧
        ∀ reason, m.loadRom (pieces.map .bytes ++ .failure reason :: rest) =
          m.refuse (.unreadableProgram reason) := by
  have hgather := Rom.gather_pieces h
  have hall := hgather []
  rw [List.append_nil] at hall
  refine ⟨?_, fun rest => ⟨?_, fun reason => ?_⟩⟩
  · rw [loadRom, hall]
    simp [Rom.gather, Rom.gatherOnto, Except.map]
  · rw [loadRom, hgather]
    simp [Rom.gather, Rom.gatherOnto, Except.map]
  · rw [loadRom, hgather]
    rfl

theorem setKey_of_not_lt {key : UInt8} (h : ¬key < 16) (m : Machine) (pressed : Bool) :
    m.setKey key pressed = m.refuse (.invalidKey key) := by
  have hnot : ¬key.toNat < 16 := fun hlt => h (UInt8.lt_iff_toNat_lt.2 hlt)
  rw [setKey, Keypad.set, dif_neg hnot]
  rfl

/-! ## Histories without refusals -/

/-- Whether a request brings something that may be refused, a program or a key. -/
def Request.brings : Request → Bool
  | .load _ | .loadRom _ | .setKey _ _ | .answerKey _ => true
  | .reset | .cycle | .run _ | .takeFrame => false

/-- Whether a request is refused: the reply to what it brings is a fault. -/
def refuses (m : Machine) (request : Request) : Bool :=
  request.brings && !(m.serve request).result.isOk

/-- A history without the requests that are refused when they come. -/
def accepted (m : Machine) : List Request → List Request
  | [] => []
  | request :: rest =>
    if m.refuses request then m.accepted rest
    else request :: (m.serve request).machine.accepted rest

/-- A request that is refused leaves the machine as it was. -/
theorem serve_of_refuses {m : Machine} {request : Request} (h : m.refuses request = true) :
    (m.serve request).machine = m := by
  obtain ⟨hbrings, hfails⟩ := Bool.and_eq_true_iff.1 h
  have hfails : (m.serve request).result.isOk = false := by simpa using hfails
  cases request with
  | load program => exact (m.starts_load program).machine_eq hfails
  | loadRom source => exact (m.starts_loadRom source).machine_eq hfails
  | setKey key pressed =>
    by_cases hkey : key < 16
    · have hlt : key.toNat < 16 := UInt8.lt_iff_toNat_lt.1 hkey
      rw [serve, setKey, Keypad.set, dif_pos hlt] at hfails
      cases hfails
    · rw [serve, setKey_of_not_lt hkey]
      rfl
  | answerKey key =>
    by_cases hkey : key < 16
    · rw [serve, answerKey, Keypad.answer, if_pos hkey] at hfails
      cases hwait : m.guest.keypad.waiting with
      | none => rw [hwait] at hfails; cases hfails
      | some x => rw [hwait] at hfails; cases hfails
    · rw [serve, answerKey_of_not_lt hkey]
      rfl
  | reset | cycle | run | takeFrame => cases hbrings

/-- Requests that are refused may be left out of every history. -/
theorem serveAll_accepted (m : Machine) (history : List Request) :
    m.serveAll (m.accepted history) = m.serveAll history := by
  induction history generalizing m with
  | nil => rfl
  | cons request rest ih =>
    rw [accepted, serveAll_cons]
    split
    · rename_i hrefused
      rw [ih, serve_of_refuses hrefused]
    · rw [serveAll_cons, ih]

/-- A program is loaded whole or not at all, and a key is taken or nothing changes. A source that
gives some bytes with every read and then ends is loaded as these bytes, however they are cut, and
one that breaks off is refused, however many bytes it gave before; there are no other sources. An
image that does not fit is refused with its full size, and every other is loaded. A key that the
pad lacks is refused. What is refused leaves the whole machine as it was, so whatever is asked
later is answered as if it had never been asked. -/
theorem load_all_or_nothing (m : Machine) :
    (∀ pieces : List (List UInt8), (∀ piece ∈ pieces, piece ≠ []) →
      m.loadRom (pieces.map .bytes) = m.load pieces.flatten ∧
        ∀ rest, m.loadRom (pieces.map .bytes ++ .bytes [] :: rest) = m.load pieces.flatten ∧
          ∀ reason, m.loadRom (pieces.map .bytes ++ .failure reason :: rest) =
            ⟨.error (.unreadableProgram reason), m, []⟩) ∧
    (∀ source : Rom.Source, ∃ pieces : List (List UInt8), (∀ piece ∈ pieces, piece ≠ []) ∧
      (source = pieces.map .bytes ∨ (∃ rest, source = pieces.map .bytes ++ .bytes [] :: rest) ∨
        ∃ reason rest, source = pieces.map .bytes ++ .failure reason :: rest)) ∧
    (∀ image : List UInt8,
      (image.length ≤ 3584 → ∃ memory, Memory.powerOn.loadProgram image = .ok memory ∧
        m.load image = ⟨.ok (), m.restart image memory, [.loaded image.length]⟩) ∧
      (3584 < image.length →
        m.load image = ⟨.error (.programTooLarge image.length), m, []⟩)) ∧
    (∀ key : UInt8, 0xF < key →
      (∀ pressed, m.setKey key pressed = ⟨.error (.invalidKey key), m, []⟩) ∧
        m.answerKey key = ⟨.error (.invalidKey key), m, []⟩) ∧
    ∀ history, m.serveAll (m.accepted history) = m.serveAll history := by
  refine ⟨fun pieces hpieces => m.loadRom_pieces hpieces, Rom.exists_pieces, m.load_eq, ?_,
    m.serveAll_accepted⟩
  intro key hkey
  have hnot : ¬key < 16 := UInt8.not_lt.2 (UInt8.lt_iff_toNat_lt.1 hkey)
  exact ⟨setKey_of_not_lt hnot m, answerKey_of_not_lt hnot m⟩

/-- Some requests that are refused, with a reset between them. -/
def refusedRequests : List Request :=
  [.loadRom [.bytes (List.replicate 4000 7), .failure "gone"], .load (List.replicate 3585 0),
    .setKey 16 true, .reset, .answerKey 16]

set_option maxRecDepth 100000 in
/-- A machine that waits for a key loads a program in two pieces as it loads it at once, and
refuses one that breaks off when more bytes have come than fit, one that is a byte too long and
keys that there are not. Of all these only the reset does something. -/
theorem load_all_or_nothing_while_asking :
    asking.isWaiting = true ∧
      asking.loadRom [.bytes [0x12], .bytes [0x00]] = asking.load [0x12, 0x00] ∧
      asking.loadRom [.bytes (List.replicate 4000 7), .failure "gone"] =
        ⟨.error (.unreadableProgram "gone"), asking, []⟩ ∧
      asking.load (List.replicate 3585 0) = ⟨.error (.programTooLarge 3585), asking, []⟩ ∧
      (asking.load (List.replicate 3584 0)).result = .ok () ∧
      asking.answerKey 16 = ⟨.error (.invalidKey 16), asking, []⟩ ∧
      asking.serveAll refusedRequests = asking.serveAll [.reset] := by
  obtain ⟨hrom, -, hload, hkey, haccepted⟩ := load_all_or_nothing asking
  obtain ⟨hwait, hbroken, hlarge, hpad, hreset, hanswer⟩ : asking.isWaiting = true ∧
      asking.refuses (.loadRom [.bytes (List.replicate 4000 7), .failure "gone"]) = true ∧
      asking.refuses (.load (List.replicate 3585 0)) = true ∧
      asking.refuses (.setKey 16 true) = true ∧ asking.refuses .reset = false ∧
      (asking.serve .reset).machine.refuses (.answerKey 16) = true := by decide +kernel
  have honly : asking.accepted refusedRequests = [.reset] := by
    rw [refusedRequests, accepted, if_pos hbroken, accepted, if_pos hlarge, accepted,
      if_pos hpad, accepted, if_neg (Bool.eq_false_iff.1 hreset), accepted, if_pos hanswer,
      accepted]
  have htoo := (hload (List.replicate 3585 0)).2 (by rw [List.length_replicate]; decide)
  rw [List.length_replicate] at htoo
  obtain ⟨memory, -, hfits⟩ :=
    (hload (List.replicate 3584 0)).1 (by rw [List.length_replicate])
  refine ⟨hwait, (hrom [[0x12], [0x00]] (by decide)).1, ?_, htoo, by rw [hfits],
    (hkey 16 (by decide)).2, ?_⟩
  · exact ((hrom [List.replicate 4000 7] (by decide)).2 []).2 "gone"
  · rw [← haccepted refusedRequests, honly]

end Machine

end Chip8VM
