import InnerLoop.Program.Basic

/-!
# Transfers, whichever side ends first

An archive is written into one end of a pipe while a remote command reads from the other end, and
the two sides move in any order. Whoever waits for both looks at the writing first and then at the
remote command; meanwhile either may have moved.

- `Transfer.Step`: what one move does.
- `Transfer.Kept`: no byte gets lost but those in the pipe when the remote command was gone.
- `Writing.Sound`, `Transfer.Tells`: the ending of a writing tells what was left of it.
- `Settlement.settled_cases`: how a transfer can be settled, in whatever order the two sides end.
- `Settlement.Obeys`: what a command in memory makes of a transfer.
- `Writing.unheeded`: an archive that fits the pipe can be left there by a command that does well.

A remote command that stops reading when the last bytes are in the pipe already goes unnoticed: it
is judged by how it ends.
-/

namespace InnerLoop

namespace Transfer

/-! ## Moves -/

/-- What a move does. -/
inductive Step (s : Transfer) : Transfer → Prop where
  | write (p : Part) (rest : List Part) (count : Nat) (hopen : s.production = none)
      (hreads : s.reads = true) (hparts : s.writing.parts = p :: rest) (hroom : count ≤ s.room) :
      Step s { s with
        pipe := s.pipe ++ p.bytes.take count, writing.parts := p.left count ++ rest }
  | breakPipe (p : Part) (rest : List Part) (hopen : s.production = none)
      (hreads : s.reads = false) (hparts : s.writing.parts = p :: rest) :
      Step s (s.finish (.ofFailure p.unread))
  | endWriting (hopen : s.production = none) (hparts : s.writing.parts = []) :
      Step s (s.finish s.writing.ending)
  | read (count : Nat) (hreads : s.reads = true) :
      Step s { s with pipe := s.pipe.drop count, received := s.received ++ s.pipe.take count }
  | stopReading : Step s s.hangUp
  | exit (result : Except ClusterFault Unit) : Step s (s.leave result)

variable {s t u : Transfer}

/-- A move does one of these. -/
theorem Step.of_move {m : Move} (h : s.move? m = some u) : Step s u := by
  cases m with
  | write count =>
    unfold move? at h
    dsimp only at h
    split at h
    · rename_i p rest hopen hparts
      split at h
      · rename_i hcan
        cases h
        exact .write p rest count hopen hcan.1 hparts (Nat.le_trans hcan.2 (Nat.min_le_right _ _))
      · cases h
    · cases h
  | breakPipe =>
    unfold move? at h
    dsimp only at h
    split at h
    · rename_i p rest hopen hparts
      split at h
      · cases h
      · rename_i hreads
        cases h
        exact .breakPipe p rest hopen (eq_false_of_ne_true hreads) hparts
    · cases h
  | endWriting =>
    unfold move? at h
    dsimp only at h
    split at h
    · rename_i hopen hparts
      cases h
      exact .endWriting hopen hparts
    · cases h
  | read count =>
    unfold move? at h
    dsimp only at h
    split at h
    · rename_i hcan
      cases h
      exact .read count hcan.1
    · cases h
  | stopReading =>
    unfold move? at h
    dsimp only at h
    split at h
    · cases h
      exact .stopReading
    · cases h
  | exit result =>
    unfold move? at h
    dsimp only at h
    split at h
    · cases h
      exact .exit result
    · cases h

/-- What every step keeps is kept all the way. -/
theorem Reaches.induct {P : Transfer → Prop} (h : s.Reaches t) (hs : P s)
    (hstep : ∀ {t u : Transfer}, Step t u → P t → P u) : P t := by
  induction h with
  | start => exact hs
  | step m _ hm ih => exact hstep (.of_move hm) ih

/-! ## Where the bytes are -/

/-- What is left of a part are its other bytes. -/
theorem flatMap_left (p : Part) (count : Nat) :
    (p.left count).flatMap Part.bytes = p.bytes.drop count := by
  unfold Part.left
  by_cases hall : p.bytes.drop count = []
  · rw [if_pos hall, hall, List.flatMap_nil]
  · rw [if_neg hall, List.flatMap_singleton]

/-- Some bytes of the first part are written before all that is left. -/
theorem bytes_of_parts {w : Writing} {p : Part} {rest : List Part} (h : w.parts = p :: rest)
    (count : Nat) :
    w.bytes = p.bytes.take count ++ (p.left count ++ rest).flatMap Part.bytes := by
  unfold Writing.bytes
  rw [h, List.flatMap_cons, List.flatMap_append, flatMap_left, ← List.append_assoc,
    List.take_append_drop]

/-- What holds of a transfer at any time, given the writing that it started with. -/
structure Kept (w : Writing) (t : Transfer) : Prop where
  failure_eq : t.writing.failure = w.failure
  /-- Every byte was read, or was in the pipe when it was last looked at, or is left to be
  written. -/
  bytes : ∃ ahead, w.bytes = t.received ++ ahead ++ t.writing.bytes ∧
    ahead.length ≤ pipeCapacity ∧ (t.reads = true → t.pipe = ahead)
  complete : t.production = some .complete → t.writing.parts = [] ∧ w.failure = none

variable {w : Writing}

theorem Kept.start (w : Writing) : Kept w { writing := w } where
  failure_eq := rfl
  bytes := ⟨[], rfl, Nat.zero_le _, fun _ => rfl⟩
  complete := fun h => nomatch h

/-- The end of a writing changes nothing but that it has ended. -/
theorem Kept.finish {p : Production} (hk : Kept w s)
    (hp : p = .complete → s.writing.parts = [] ∧ w.failure = none) : Kept w (s.finish p) where
  failure_eq := hk.failure_eq
  bytes := hk.bytes
  complete := fun h => hp (Option.some.inj h)

theorem Kept.hangUp (hk : Kept w s) : Kept w s.hangUp where
  failure_eq := hk.failure_eq
  bytes := by
    obtain ⟨ahead, hbytes, hfits, -⟩ := hk.bytes
    exact ⟨ahead, hbytes, hfits, fun h => nomatch h⟩
  complete := hk.complete

theorem ofFailure_ne_complete (failure : Failure) : Production.ofFailure failure ≠ .complete := by
  unfold Production.ofFailure
  split
  · exact nofun
  · exact nofun

theorem failure_of_ending {v : Writing} (h : v.ending = .complete) : v.failure = none := by
  unfold Writing.ending at h
  split at h
  · exact absurd h (ofFailure_ne_complete _)
  · assumption

theorem Step.kept (h : Step s t) (hk : Kept w s) : Kept w t := by
  cases h with
  | write p rest count hopen hreads hparts hroom =>
    obtain ⟨ahead, hbytes, hfits, hpipe⟩ := hk.bytes
    refine ⟨hk.failure_eq, ⟨ahead ++ p.bytes.take count, ?_, ?_, fun _ => ?_⟩, fun h => ?_⟩
    · show w.bytes = s.received ++ (ahead ++ p.bytes.take count) ++
        (p.left count ++ rest).flatMap Part.bytes
      rw [hbytes, bytes_of_parts hparts count]
      simp only [List.append_assoc]
    · have htook : (p.bytes.take count).length ≤ pipeCapacity - ahead.length := by
        rw [← hpipe hreads]
        exact Nat.le_trans (List.length_take_le count p.bytes) hroom
      rw [List.length_append]
      omega
    · exact congrArg (· ++ p.bytes.take count) (hpipe hreads)
    · exact absurd (hopen.symm.trans h) (nomatch ·)
  | breakPipe p rest hopen hreads hparts =>
    exact hk.finish fun h => absurd h (ofFailure_ne_complete _)
  | endWriting hopen hparts =>
    exact hk.finish fun h => ⟨hparts, hk.failure_eq ▸ failure_of_ending h⟩
  | read count hreads =>
    obtain ⟨ahead, hbytes, hfits, hpipe⟩ := hk.bytes
    refine ⟨hk.failure_eq, ⟨ahead.drop count, ?_, ?_, fun _ => ?_⟩, hk.complete⟩
    · show w.bytes = s.received ++ s.pipe.take count ++ ahead.drop count ++ s.writing.bytes
      rw [hpipe hreads, List.append_assoc s.received, List.take_append_drop]
      exact hbytes
    · rw [List.length_drop]
      exact Nat.le_trans (Nat.sub_le _ count) hfits
    · exact congrArg (List.drop count) (hpipe hreads)
  | stopReading => exact hk.hangUp
  | exit result => exact ⟨hk.hangUp.failure_eq, hk.hangUp.bytes, hk.hangUp.complete⟩

theorem Reaches.kept (h : Reaches { writing := w } t) : Kept w t :=
  h.induct (.start w) Step.kept

/-- A writing that has ended stays so. -/
theorem Step.production_eq {p : Production} (h : Step s t) (hp : s.production = some p) :
    t.production = some p := by
  cases h with
  | write _ _ _ hopen _ _ _ => exact absurd (hopen.symm.trans hp) (nomatch ·)
  | breakPipe _ _ hopen _ _ => exact absurd (hopen.symm.trans hp) (nomatch ·)
  | endWriting hopen _ => exact absurd (hopen.symm.trans hp) (nomatch ·)
  | read _ _ => exact hp
  | stopReading => exact hp
  | exit _ => exact hp

theorem Reaches.production_eq {p : Production} (h : s.Reaches t) (hp : s.production = some p) :
    t.production = some p :=
  h.induct hp Step.production_eq

end Transfer

/-! ## What an ending tells -/

/-- A writing that breaks off, if it does, for a reason of its own, and only when all but the end of
the archive was written before. -/
structure Writing.Sound (w : Writing) : Prop where
  own : ∀ failure, w.failure = some failure → failure.isHangUp = false
  unread : ∀ p ∈ w.parts, p.unread.isHangUp = false → w.failure = some p.unread
  ordered : w.parts.Pairwise fun p q => p.unread.isHangUp = false → q.unread.isHangUp = false

theorem Writing.Sound.prepend {w : Writing} {parts : List Part} (h : w.Sound)
    (hparts : ∀ p ∈ parts, p.unread.isHangUp = true) :
    Writing.Sound { w with parts := parts ++ w.parts } where
  own := h.own
  unread := by
    intro p hp hown
    rcases List.mem_append.mp hp with hp | hp
    · exact absurd ((hparts p hp).symm.trans hown) (nomatch ·)
    · exact h.unread p hp hown
  ordered := by
    have hnot : ∀ p ∈ parts, ∀ q : Part, p.unread.isHangUp = false → q.unread.isHangUp = false :=
      fun p hp q hown => absurd ((hparts p hp).symm.trans hown) (nomatch ·)
    refine List.pairwise_append.mpr ⟨?_, h.ordered, fun p hp q _ => hnot p hp q⟩
    exact List.pairwise_of_forall_mem_list fun p hp q _ => hnot p hp q

namespace Transfer

variable {s t : Transfer} {w : Writing}

/-- The remote command is gone, or reads no more, and more was left to be written than what ends an
archive that cannot be made. -/
def LeftUnread (t : Transfer) : Prop :=
  t.reads = false ∧ ∃ p ∈ t.writing.parts, p.unread.isHangUp = true

/-- The ending of a writing tells how much of it was written, and why no more. -/
def Tells (t : Transfer) : Production → Prop
  | .complete => t.writing.parts = []
  | .unread failure => failure.isHangUp = true ∧ t.LeftUnread
  | .failed failure =>
    t.writing.failure = some failure ∧ ∀ p ∈ t.writing.parts, p.unread.isHangUp = false

theorem tells_breakPipe {p : Part} {rest : List Part} (hsound : s.writing.Sound)
    (hreads : s.reads = false) (hparts : s.writing.parts = p :: rest) :
    s.Tells (.ofFailure p.unread) := by
  have hp : p ∈ s.writing.parts := hparts ▸ List.mem_cons_self
  unfold Production.ofFailure
  cases hown : p.unread.isHangUp with
  | true => exact ⟨hown, hreads, p, hp, hown⟩
  | false =>
    refine ⟨hsound.unread p hp hown, ?_⟩
    rw [hparts, List.forall_mem_cons]
    have hordered := hsound.ordered
    rw [hparts, List.pairwise_cons] at hordered
    exact ⟨hown, fun q hq => hordered.1 q hq hown⟩

theorem tells_endWriting (hsound : s.writing.Sound) (hparts : s.writing.parts = []) :
    s.Tells s.writing.ending := by
  unfold Writing.ending
  cases hfailure : s.writing.failure with
  | none => exact hparts
  | some failure =>
    have hown := hsound.own failure hfailure
    unfold Production.ofFailure
    dsimp only
    rw [hown]
    refine ⟨hfailure, fun p hp => ?_⟩
    rw [hparts] at hp
    exact absurd hp List.not_mem_nil

/-- The writing stays sound, and if it has ended, its ending tells how much of it was written. -/
structure Accounts (t : Transfer) : Prop where
  sound : t.writing.Sound
  tells : ∀ p, t.production = some p → t.Tells p

/-- What an ending tells stays true while nothing is written and nobody starts to read. -/
theorem Tells.mono {p : Production} (h : s.Tells p) (hwriting : t.writing = s.writing)
    (hreads : s.reads = false → t.reads = false) : t.Tells p := by
  cases p with
  | complete => exact (congrArg Writing.parts hwriting).trans h
  | unread failure =>
    obtain ⟨hhangs, hgone, hleft⟩ := h
    exact ⟨hhangs, hreads hgone, hwriting ▸ hleft⟩
  | failed failure =>
    show t.writing.failure = some failure ∧ ∀ p ∈ t.writing.parts, p.unread.isHangUp = false
    rw [hwriting]
    exact h

theorem Accounts.finish {p : Production} (h : s.Accounts) (hp : s.Tells p) :
    (s.finish p).Accounts where
  sound := h.sound
  tells := by
    rintro q ⟨⟩
    exact hp.mono rfl id

theorem Accounts.mono (h : s.Accounts) (hwriting : t.writing = s.writing)
    (hproduction : t.production = s.production) (hreads : s.reads = false → t.reads = false) :
    t.Accounts where
  sound := hwriting ▸ h.sound
  tells := fun p hp => (h.tells p (hproduction.symm.trans hp)).mono hwriting hreads

/-- A part that was written in part has the same to say of it. -/
theorem unread_of_mem_left {p q : Part} {count : Nat} (h : q ∈ p.left count) :
    q.unread = p.unread := by
  unfold Part.left at h
  split at h
  · exact absurd h List.not_mem_nil
  · rw [List.mem_singleton.mp h]

theorem sound_write {p : Part} {rest : List Part} {count : Nat} (h : w.Sound)
    (hparts : w.parts = p :: rest) : Writing.Sound { w with parts := p.left count ++ rest } := by
  obtain ⟨hown, hunread, hordered⟩ := h
  rw [hparts] at hunread hordered
  rw [List.pairwise_cons] at hordered
  rw [List.forall_mem_cons] at hunread
  refine ⟨hown, fun q hq => ?_, List.pairwise_append.mpr ⟨?_, hordered.2, fun q hq r hr => ?_⟩⟩
  · rcases List.mem_append.mp hq with hq | hq
    · rw [unread_of_mem_left hq]
      exact hunread.1
    · exact hunread.2 q hq
  · unfold Part.left
    split
    · exact .nil
    · exact List.pairwise_singleton _ _
  · rw [unread_of_mem_left hq]
    exact hordered.1 r hr

theorem Step.accounts (h : Step s t) (hs : s.Accounts) : t.Accounts := by
  cases h with
  | write p rest count hopen hreads hparts hroom =>
    refine ⟨sound_write hs.sound hparts, fun q hq => ?_⟩
    exact absurd (hopen.symm.trans hq) (nomatch ·)
  | breakPipe p rest hopen hreads hparts => exact hs.finish (tells_breakPipe hs.sound hreads hparts)
  | endWriting hopen hparts => exact hs.finish (tells_endWriting hs.sound hparts)
  | read count hreads => exact hs.mono rfl rfl id
  | stopReading => exact hs.mono rfl rfl fun _ => rfl
  | exit result => exact hs.mono rfl rfl fun _ => rfl

theorem Reaches.accounts (h : Reaches { writing := w } t) (hw : w.Sound) : t.Accounts :=
  h.induct ⟨hw, nofun⟩ Step.accounts

/-! ## Who is to blame -/

/-- How a transfer can be settled, given the writing that it started with. -/
inductive Settled (w : Writing) (t : Transfer) : Except Failure Unit → Prop
  | well (hleft : t.writing.parts = []) (hwell : w.failure = none)
      (hexit : t.exit = some (.ok ())) : Settled w t (.ok ())
  | remote (fault : ClusterFault) (hexit : t.exit = some (.error fault)) :
      Settled w t (.error (.ofCluster fault))
  | unread (failure : Failure) (hhangs : failure.isHangUp = true) (hunread : t.LeftUnread)
      (hexit : t.exit = some (.ok ())) : Settled w t (.error failure)
  | broken (failure : Failure) (hfailure : w.failure = some failure) (hunread : ¬ t.LeftUnread) :
      Settled w t (.error failure)

theorem result?_cases {r : Except Failure Unit} (h : s.result? = some r) :
    (∃ p e, s.production = some p ∧ s.exit = some e ∧ r = p.conclude e) ∨
      (∃ failure, s.production = some (.failed failure) ∧ r = .error failure) ∨
      ∃ fault, s.exit = some (.error fault) ∧ r = .error (.ofCluster fault) := by
  unfold result? at h
  split at h
  · rename_i p e hproduction hexit
    exact .inl ⟨p, e, hproduction, hexit, (Option.some.inj h).symm⟩
  · rename_i failure hproduction hexit
    exact .inr (.inl ⟨failure, hproduction, (Option.some.inj h).symm⟩)
  · rename_i fault hproduction hexit
    exact .inr (.inr ⟨fault, hexit, (Option.some.inj h).symm⟩)
  · cases h

/-- A writing that has failed is to blame. -/
theorem Kept.settled_failed {failure : Failure} (hk : Kept w t)
    (htells : t.Tells (.failed failure)) : Settled w t (.error failure) := by
  refine .broken failure (hk.failure_eq.symm.trans htells.1) ?_
  rintro ⟨-, p, hp, hhangs⟩
  exact absurd ((htells.2 p hp).symm.trans hhangs) (nomatch ·)

/-- What both endings come to. -/
theorem Kept.settled_conclude {p : Production} {e : Except ClusterFault Unit} (hk : Kept w t)
    (hp : t.production = some p) (htells : t.Tells p) (hexit : t.exit = some e) :
    Settled w t (p.conclude e) := by
  cases p with
  | complete =>
    cases e with
    | ok _ => exact .well htells (hk.complete hp).2 hexit
    | error fault => exact .remote fault hexit
  | unread failure =>
    cases e with
    | ok _ => exact .unread failure htells.1 htells.2 hexit
    | error fault => exact .remote fault hexit
  | failed failure => exact hk.settled_failed htells

end Transfer

namespace Settlement

open Transfer

variable {w : Writing} (s : Settlement w)

theorem kept : Kept w s.now := (s.reached.trans s.later).kept

/-- In whatever order the two sides end, the outcome is one of the four. -/
theorem settled_cases (hw : w.Sound) : Settled w s.now s.result := by
  have htells := ((s.reached.trans s.later).accounts hw).tells
  rcases result?_cases s.settled with ⟨p, e, hp, hexit, hr⟩ | ⟨failure, hp, hr⟩ | ⟨fault, hexit, hr⟩
  · have hp := s.later.production_eq hp
    rw [hr]
    exact s.kept.settled_conclude hp (htells p hp) hexit
  · rw [hr]
    exact s.kept.settled_failed (htells _ (s.later.production_eq hp))
  · rw [hr]
    exact .remote fault hexit

/-- Whatever is written, it is settled well only if all of it was and the remote command did
well. -/
theorem of_ok (h : s.result = .ok ()) : w.failure = none ∧ s.now.exit = some (.ok ()) := by
  rcases result?_cases s.settled with ⟨p, e, hp, hexit, hr⟩ | ⟨failure, hp, hr⟩ | ⟨fault, hexit, hr⟩
  · have hconclude : p.conclude e = .ok () := hr.symm.trans h
    have hp := s.later.production_eq hp
    cases p with
    | failed failure => cases hconclude
    | unread failure => cases e <;> cases hconclude
    | complete =>
      cases e with
      | error fault => cases hconclude
      | ok _ => exact ⟨(s.kept.complete hp).2, hexit⟩
  · exact absurd (hr.symm.trans h) (nomatch ·)
  · exact absurd (hr.symm.trans h) (nomatch ·)

/-! ## Commands in memory -/

/-- What a command of the cluster in memory makes of a transfer, given the trouble that it meets. It
reads all there is before it ends, or nothing if it hangs up. Who is quicker is left open: it may be
given up before it ends. -/
structure Obeys (trouble : Option ExecTrouble) : Prop where
  exit_eq : ∀ e, s.now.exit = some e → e = exitOf trouble
  patient : hangsUp trouble = false → s.now.exit.isSome = true → s.now.received = w.bytes
  deaf : hangsUp trouble = true → s.now.received = []

/-- What such a command has read when it ends. -/
theorem Obeys.received_eq {s : Settlement w} {trouble : Option ExecTrouble} (h : s.Obeys trouble)
    (hended : s.now.exit.isSome = true) :
    s.now.received = if hangsUp trouble then [] else w.bytes := by
  split
  · exact h.deaf ‹_›
  · exact h.patient (Bool.eq_false_iff.mpr ‹_›) hended

theorem obeys_drained (w : Writing) {trouble : Option ExecTrouble} (h : hangsUp trouble = false) :
    (drained w (exitOf trouble)).Obeys trouble where
  exit_eq := fun _ he => (Option.some.inj he).symm
  patient := fun _ _ => rfl
  deaf := fun hhangs => absurd (h.symm.trans hhangs) (nomatch ·)

theorem obeys_deserted (w : Writing) {trouble : Option ExecTrouble} (h : hangsUp trouble = true) :
    (deserted w (exitOf trouble)).Obeys trouble := by
  refine ⟨fun e he => ?_, fun hpatient => ?_, fun _ => ?_⟩
  · unfold deserted at he
    dsimp only at he
    split at he
    · cases he
    · exact (Option.some.inj he).symm
  · exact absurd (h.symm.trans hpatient) (nomatch ·)
  · unfold deserted
    dsimp only
    split
    · rfl
    · rfl

end Settlement

/-! ## Archives that nobody reads -/

namespace Transfer

/-- Some parts go into the pipe one after another, as long as all of them fit. -/
theorem reaches_pipe (parts : List Part) (failure : Option Failure) (pipe : List UInt8)
    (hfits : (pipe ++ parts.flatMap Part.bytes).length ≤ pipeCapacity) :
    Reaches { writing := ⟨parts, failure⟩, pipe }
      { writing := ⟨[], failure⟩, pipe := pipe ++ parts.flatMap Part.bytes } := by
  induction parts generalizing pipe with
  | nil =>
    rw [List.flatMap_nil, List.append_nil]
    exact .start
  | cons p rest ih =>
    rw [List.flatMap_cons, ← List.append_assoc] at hfits ⊢
    refine Reaches.trans (.step (.write p.bytes.length) .start ?_) (ih (pipe ++ p.bytes) hfits)
    have hroom : p.bytes.length ≤ pipeCapacity - pipe.length := by
      simp only [List.length_append] at hfits
      omega
    simp [move?, room, Part.left, hroom]

end Transfer

/-- All of an archive that fits the pipe is there, and then the remote command ends well without
having read any of it. -/
def Writing.unheeded (w : Writing) (hwell : w.failure = none)
    (hfits : w.bytes.length ≤ pipeCapacity) : Settlement w :=
  let written : Transfer := { writing := ⟨[], w.failure⟩, pipe := w.bytes }
  { seen := (written.finish .complete).leave (.ok ())
    now := (written.finish .complete).leave (.ok ())
    result := .ok ()
    reached := by
      have hpipe : Transfer.Reaches { writing := w } written :=
        Transfer.reaches_pipe w.parts w.failure [] hfits
      have hended : written.move? .endWriting = some (written.finish .complete) := by
        unfold Transfer.move? Writing.ending
        simp only [written, hwell]
      exact (hpipe.step .endWriting hended).step (.exit (.ok ())) rfl
    later := .start
    settled := rfl }

end InnerLoop
