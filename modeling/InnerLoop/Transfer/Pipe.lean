import InnerLoop.Transfer.Archive

/-!
# Archives on their way through a pipe

An archive is written into one end of a pipe while a remote command reads from the other end. The
pipe holds only so many bytes, either side may be ahead of the other, and either may end first.

- `Production`: how the writing ended, and `Production.conclude`, what a transfer comes to when both
  sides have ended.
- `Transfer`: where both sides stand, and `Transfer.result?`, what is settled by then: the side that
  fails first decides, unless it is a writing that only found no reader.
- `Transfer.Move`, `Transfer.move?`: what either side does next.
- `Transfer.Reaches`: where a transfer can get to.
- `Settlement`: how a transfer was settled, whatever the two sides did before; `Settlement.drained`
  and `Settlement.deserted`, how it is if the remote command reads all, or nothing.
-/

namespace InnerLoop

/-! ## Endings -/

/-- How the writing of an archive ended. -/
inductive Production where
  | complete
  /-- The other end was gone before all was written. -/
  | unread (failure : Failure)
  | failed (failure : Failure)
  deriving DecidableEq, Inhabited

/-- Whether a failure says no more than that nobody reads. -/
def Failure.isHangUp : Failure → Bool
  | .malformed _ .brokenPipe => true
  | .io .brokenPipe => true
  | _ => false

/-- How a writing ended that ended with a failure. -/
def Production.ofFailure (failure : Failure) : Production :=
  if failure.isHangUp then .unread failure else .failed failure

/-- How a writing ends that has nothing left to write. -/
def Writing.ending (w : Writing) : Production :=
  match w.failure with
  | some failure => .ofFailure failure
  | none => .complete

/-- How a writing ends of which nobody reads anything. -/
def Writing.desertion (w : Writing) : Production :=
  match w.parts with
  | [] => w.ending
  | p :: _ => .ofFailure p.unread

/-- What a transfer comes to when the writing and the remote command have ended. A writing that
found no reader leaves it to the remote command to say why, and is the failure only if that claims
to have done well. -/
def Production.conclude : Production → Except ClusterFault Unit → Except Failure Unit
  | .failed failure, _ => .error failure
  | _, .error fault => .error (.ofCluster fault)
  | .unread failure, .ok () => .error failure
  | .complete, .ok () => .ok ()

/-! ## Both sides at work -/

/-- What is left of a part after so many of its bytes were written, if anything is. -/
def Part.left (p : Part) (count : Nat) : List Part :=
  if p.bytes.drop count = [] then [] else [{ p with bytes := p.bytes.drop count }]

/-- How many bytes a pipe holds. -/
def pipeCapacity : Nat := 64 * 1024

/-- The two sides of a transfer, and the pipe between them. -/
structure Transfer where
  /-- What is left to be written. -/
  writing : Writing
  /-- What was written and not yet read. -/
  pipe : List UInt8 := []
  /-- What was read. -/
  received : List UInt8 := []
  /-- Whether the remote command still reads. -/
  reads : Bool := true
  /-- How the writing ended, if it did. -/
  production : Option Production := none
  /-- How the remote command ended, if it did. -/
  exit : Option (Except ClusterFault Unit) := none
  deriving Inhabited

namespace Transfer

/-- What one side does next. -/
inductive Move where
  /-- So many bytes of the part in hand are written. -/
  | write (count : Nat)
  /-- The writing finds that nobody reads. -/
  | breakPipe
  /-- Nothing is left to be written. -/
  | endWriting
  /-- So many bytes are read. -/
  | read (count : Nat)
  /-- The remote command stops reading. -/
  | stopReading
  /-- The remote command ends. -/
  | exit (result : Except ClusterFault Unit)

/-- How many more bytes the pipe holds. -/
def room (s : Transfer) : Nat := pipeCapacity - s.pipe.length

/-- The state after the writing has ended. -/
def finish (s : Transfer) (p : Production) : Transfer := { s with production := some p }

/-- The state after nobody reads any more; what is in the pipe is lost. -/
def hangUp (s : Transfer) : Transfer := { s with reads := false, pipe := [] }

/-- The state after the remote command has ended. -/
def leave (s : Transfer) (result : Except ClusterFault Unit) : Transfer :=
  { s.hangUp with exit := some result }

/-- The state after a move, if the move can be made. -/
def move? (s : Transfer) : Move → Option Transfer
  | .write count =>
    match s.production, s.writing.parts with
    | none, p :: rest =>
      if s.reads ∧ count ≤ min p.bytes.length s.room then
        some { s with
          pipe := s.pipe ++ p.bytes.take count, writing.parts := p.left count ++ rest }
      else none
    | _, _ => none
  | .breakPipe =>
    match s.production, s.writing.parts with
    | none, p :: _ => if s.reads then none else some (s.finish (.ofFailure p.unread))
    | _, _ => none
  | .endWriting =>
    match s.production, s.writing.parts with
    | none, [] => some (s.finish s.writing.ending)
    | _, _ => none
  | .read count =>
    if s.reads ∧ s.exit.isNone then
      some { s with pipe := s.pipe.drop count, received := s.received ++ s.pipe.take count }
    else none
  | .stopReading => if s.exit.isNone then some s.hangUp else none
  | .exit result => if s.exit.isNone then some (s.leave result) else none

/-- What is settled: all is, when both sides have ended, and else the failure of the side that has
ended, unless the writing only found no reader. -/
def result? (s : Transfer) : Option (Except Failure Unit) :=
  match s.production, s.exit with
  | some p, some e => some (p.conclude e)
  | some (.failed failure), none => some (.error failure)
  | none, some (.error fault) => some (.error (.ofCluster fault))
  | _, _ => none

/-- What is settled in the eyes of one who looks at the writing in one state, and at the remote
command in a state that came after it. -/
def joined? (s t : Transfer) : Option (Except Failure Unit) :=
  { t with production := s.production }.result?

/-- Where a transfer can get to, with moves of both sides in any order. -/
inductive Reaches (s : Transfer) : Transfer → Prop where
  | start : Reaches s s
  | step {t u : Transfer} (m : Move) : Reaches s t → t.move? m = some u → Reaches s u

theorem Reaches.trans {s t u : Transfer} (h : s.Reaches t) (h' : t.Reaches u) : s.Reaches u := by
  induction h' with
  | start => exact h
  | step m _ hm ih => exact ih.step m hm

/-! ## Reading all of it -/

/-- The bytes of one part are written, and read, one after another. -/
theorem reaches_part (p : Part) (rest : List Part) (failure : Option Failure)
    (received : List UInt8) :
    Reaches { writing := ⟨p :: rest, failure⟩, received }
      { writing := ⟨rest, failure⟩, received := received ++ p.bytes } := by
  obtain ⟨bytes, unread⟩ := p
  induction bytes generalizing received with
  | nil =>
    refine .step (.write 0) .start ?_
    simp [move?, Part.left]
  | cons b bytes ih =>
    -- One byte at a time always finds room.
    have hwritten : Reaches { writing := ⟨⟨b :: bytes, unread⟩ :: rest, failure⟩, received }
        { writing := ⟨Part.left ⟨b :: bytes, unread⟩ 1 ++ rest, failure⟩
          pipe := [b], received := received } := by
      refine .step (.write 1) .start ?_
      simp [move?, room, pipeCapacity]
    have hread : Reaches { writing := ⟨⟨b :: bytes, unread⟩ :: rest, failure⟩, received }
        { writing := ⟨Part.left ⟨b :: bytes, unread⟩ 1 ++ rest, failure⟩
          received := received ++ [b] } := by
      refine .step (.read 1) hwritten ?_
      simp [move?]
    by_cases hlast : bytes = []
    · subst hlast
      exact hread
    · have hleft : Part.left ⟨b :: bytes, unread⟩ 1 = [⟨bytes, unread⟩] := if_neg hlast
      rw [hleft] at hread
      have hrest := hread.trans (ih (received ++ [b]))
      rwa [List.append_assoc, List.singleton_append] at hrest

theorem reaches_parts (parts : List Part) (failure : Option Failure) (received : List UInt8) :
    Reaches { writing := ⟨parts, failure⟩, received }
      { writing := ⟨[], failure⟩, received := received ++ parts.flatMap Part.bytes } := by
  induction parts generalizing received with
  | nil =>
    rw [List.flatMap_nil, List.append_nil]
    exact .start
  | cons p rest ih =>
    rw [List.flatMap_cons, ← List.append_assoc]
    exact (reaches_part p rest failure received).trans (ih _)

/-- The state after all that is written was read. -/
def readOut (w : Writing) : Transfer := { writing := ⟨[], w.failure⟩, received := w.bytes }

theorem reaches_readOut (w : Writing) : Reaches { writing := w } (readOut w) :=
  reaches_parts w.parts w.failure []

end Transfer

/-! ## Settled transfers -/

/-- How the transfer of a writing was settled. Whoever waits for both sides looks at the writing
first and then at the remote command, and meanwhile either side may have moved. -/
structure Settlement (w : Writing) where
  /-- The transfer when the writing was looked at. -/
  seen : Transfer
  /-- The transfer when the remote command was looked at. -/
  now : Transfer
  result : Except Failure Unit
  reached : Transfer.Reaches { writing := w } seen
  later : seen.Reaches now
  settled : seen.joined? now = some result

namespace Settlement

open Transfer

variable (w : Writing) (e : Except ClusterFault Unit)

/-- All is read, and then the remote command ends. If it fails, that is noticed before the end of
the writing. -/
def drained : Settlement w where
  seen := match e with
    | .ok () => ((readOut w).finish w.ending).leave e
    | .error _ => readOut w
  now := ((readOut w).finish w.ending).leave e
  result := match e with
    | .ok () => w.ending.conclude e
    | .error fault => .error (.ofCluster fault)
  reached := by
    have hended := (reaches_readOut w).step .endWriting rfl
    cases e with
    | ok _ => exact hended.step (.exit _) rfl
    | error fault => exact reaches_readOut w
  later := by
    cases e with
    | ok _ => exact .start
    | error fault => exact .step (.exit _) (.step .endWriting .start rfl) rfl
  settled := by
    cases e with
    | ok _ => rfl
    | error fault => rfl

/-- The state after nobody has read anything and the writing has ended. -/
def unheard : Transfer := (hangUp { writing := w }).finish w.desertion

theorem reaches_unheard : Reaches { writing := w } (unheard w) := by
  have hgone : Reaches { writing := w } (hangUp { writing := w }) := .step .stopReading .start rfl
  obtain ⟨parts, failure⟩ := w
  cases parts with
  | nil => exact hgone.step .endWriting rfl
  | cons p rest => exact hgone.step .breakPipe rfl

/-- The remote command stops reading before anything is written, and ends later, unless it is given
up before because the writing has failed. -/
def deserted : Settlement w :=
  let now := match w.desertion with
    | .failed _ => unheard w
    | _ => (unheard w).leave e
  { seen := now
    now
    result := w.desertion.conclude e
    reached := by
      cases h : w.desertion with
      | failed failure => simpa only [now, h] using reaches_unheard w
      | _ => simpa only [now, h] using (reaches_unheard w).step (.exit e) rfl
    later := .start
    settled := by
      cases h : w.desertion with
      | failed failure =>
        simp [now, h, joined?, result?, unheard, finish, hangUp, Production.conclude]
      | _ => simp [now, h, joined?, result?, unheard, finish, leave, hangUp] }

instance : Inhabited (Settlement w) := ⟨drained w (.ok ())⟩

end Settlement

end InnerLoop
