import InnerLoop.Operation.Wait
import InnerLoop.Proofs.Awaited
import InnerLoop.Proofs.Clients
import InnerLoop.Proofs.Pace

/-!
# Waiting until a claim is gone

Others may create, delete and create the claim again while it is waited for. The watch is opened
first, so whatever happens afterwards it is told of, and the look at the claim tells of the time
before.

- `removal`, `Event.Removes`: the news that a claim is gone.
- `reports_removal`: a watch on a claim is told of each removal.
- `RemovalWatch`: surroundings in which a watch on a claim is told of some removals;
  `Paced.awaited_deletion`: how a wait for a deletion ends in them.
- `waitForClaimDeletion_ok_iff`: **a wait for a deletion succeeds exactly if the claim was absent
  when it was looked for, or was removed in time since the watch was opened**.
- `runBeside_waitForClaimDeletion`: so it does when it is run to its end beside other clients.
-/

namespace InnerLoop

open Store

/-! ## Removals -/

/-- The news that a claim is gone which was there before. -/
def removal (c : String) (w w' : World) : Option (Ending Claim) :=
  match w.cluster.claims.objects.find? c, w'.cluster.claims.objects.find? c with
  | some o, none => some (.satisfied o)
  | _, _ => none

/-- A turn in which a claim is removed. -/
def Event.Removes (c : String) (e : Event Unit) : Prop :=
  e.before.cluster.claims.contains c = true ∧ e.after.cluster.claims.contains c = false

/-- A watch on a claim was told something, and this is how that ends a wait for its deletion. -/
structure HeardOfClaim (own : Nat) (c : String) (w : World) (found : Option (Ending Claim)) :
    Prop where
  sound : w.cluster.claims.Sound
  told : ∃ queue, w.cluster.claims.Listens own c queue ∧
    firstDecisive deletionVerdict queue = found

theorem removal_eq_none_of_same {c : String} {w w' : World}
    (h : w'.cluster.claims.objects.find? c = w.cluster.claims.objects.find? c) :
    removal c w w' = none := by
  unfold removal
  rw [h]
  cases w.cluster.claims.objects.find? c <;> rfl

theorem removal_isSome_iff {c : String} {e : Event Unit} :
    (removal c e.before e.after).isSome = true ↔ e.Removes c := by
  unfold removal Event.Removes Store.contains SortedMap.contains
  cases e.before.cluster.claims.objects.find? c <;>
    cases e.after.cluster.claims.objects.find? c <;> simp

/-- The word of a removal satisfies. -/
theorem removal_eq_satisfied {c : String} {w w' : World} {ending : Ending Claim}
    (h : removal c w w' = some ending) : ∃ o, ending = .satisfied o := by
  unfold removal at h
  split at h
  · cases h
    exact ⟨_, rfl⟩
  · cases h

/-- Removals in time are news. -/
theorem newsBefore_removal_isSome_iff {deadline : Nat} {c : String} {t : List (Event Unit)} :
    (newsBefore deadline (removal c) t).isSome = true ↔
      ∃ e ∈ t, e.Removes c ∧ e.after.clock < deadline := by
  simp only [newsBefore_isSome_iff, removal_isSome_iff]

/-- What a turn tells of a claim decides if the claim is gone. -/
theorem firstDecisive_told {c : String} {w w' : World} {told : List (WatchEvent Claim)}
    (h : Tells c w.cluster.claims w'.cluster.claims told) :
    firstDecisive deletionVerdict told = removal c w w' := by
  cases h with
  | nothing hsame => exact (removal_eq_none_of_same hsame).symm
  | @filed change o hchange hfind =>
    unfold removal
    rw [hfind]
    cases change with
    | deleted => exact absurd rfl hchange
    | added => cases w.cluster.claims.objects.find? c <;> rfl
    | modified => cases w.cluster.claims.objects.find? c <;> rfl
  | removed hbefore hgone =>
    unfold removal
    rw [hbefore, hgone]
    rfl

/-- **A watch on a claim is told of each removal**, and of no other. -/
theorem reports_removal (own : Nat) (c : String) :
    Reports .claim own deletionVerdict (StoreTurn .claim own) (removal c) (HeardOfClaim own c) where
  ending := by
    rintro w found ⟨-, queue, hlistens, rfl⟩
    exact World.ending?_of_live (k := .claim) hlistens rfl
  turn := by
    rintro w w' found ⟨hsound, queue, hlistens, rfl⟩ hturn
    replace hturn : w.cluster.claims.ClientStep own w'.cluster.claims := hturn
    obtain ⟨told, htells, hlistens'⟩ := hturn.tells hsound hlistens
    refine ⟨hturn.sound hsound, queue ++ told, hlistens', ?_⟩
    rw [← firstDecisive_told htells]
    exact List.findSome?_append

/-- What a list tells decides no wait for a deletion. -/
theorem firstDecisive_added (l : List Claim) :
    firstDecisive deletionVerdict (l.map (.object .added)) = none := by
  refine List.findSome?_eq_none_iff.mpr fun e he => ?_
  obtain ⟨o, -, rfl⟩ := List.mem_map.mp he
  rfl

/-- A watch on a claim that starts was told of no removal. -/
theorem heardOfClaim_watch {w : World} (hs : w.cluster.claims.Sound) (c : String) :
    HeardOfClaim w.cluster.claims.nextHandle c
      (w.modifyCluster (·.withStore .claim (w.cluster.claims.watch (.name c)).2)) none where
  sound := (StoreStep.watch _).sound hs
  told := ⟨_, listens_watch hs c, firstDecisive_added _⟩

/-! ## The wait -/

/-- How a wait for a deletion ends. -/
def awaitedDeletion (s : Settings) (c : String) (e : Ending Claim) : Except Failure Unit :=
  (e.result ("deletion of PersistentVolumeClaim " ++ c) (.ofMillis s.deleteTimeout)).map fun _ => ()

/-- The wait for a deletion after the claim was looked for. -/
def afterClaimLook (s : Settings) (c : String) (own : Nat) :
    Except ClusterFault Claim → Program (Except Failure Unit)
  | .error fault => .ask (.dropWatch .claim own) fun _ =>
    .done (if fault.isNotFound then .ok () else .error (.ofCluster fault))
  | .ok _ => .ask .now fun now =>
    .ask (.await .claim own (now + s.deleteTimeout) deletionVerdict) fun e =>
      .done (awaitedDeletion s c e)

theorem waitForClaimDeletion_eq (s : Settings) (c : String) :
    (waitForClaimDeletion s c).run = .ask (.watch .claim (.name c)) fun own =>
      .ask (.getClaim c) (afterClaimLook s c own) := by
  refine congrArg (Program.ask _) (funext fun own => ?_)
  refine congrArg (Program.ask _) (funext fun reply => ?_)
  cases reply with
  | error fault =>
    refine congrArg (Program.ask _) (funext fun _ => ?_)
    cases fault.isNotFound <;> rfl
  | ok _ =>
    refine congrArg (Program.ask _) (funext fun now => ?_)
    refine congrArg (Program.ask _) (funext fun e => ?_)
    cases e <;> rfl

/-- The watch is opened once. -/
theorem asks_afterWatch {s : Settings} {c : String} (own : Nat) :
    (Program.ask (.getClaim c) (afterClaimLook s c own)).Asks
      fun r => r ≠ .watch .claim (.name c) := by
  refine ⟨nofun, fun reply => ?_⟩
  cases reply with
  | error fault => exact ⟨nofun, fun _ => trivial⟩
  | ok o => exact ⟨nofun, fun _ => ⟨nofun, fun _ => trivial⟩⟩

/-- The claim is looked for once. -/
theorem asks_afterClaimLook {s : Settings} {c : String} {own : Nat}
    (reply : Except ClusterFault Claim) :
    (afterClaimLook s c own reply).Asks fun r => r ≠ .getClaim c := by
  cases reply with
  | error fault => exact ⟨nofun, fun _ => trivial⟩
  | ok o => exact ⟨nofun, fun _ => ⟨nofun, fun _ => trivial⟩⟩

/-- Surroundings that open a watch on a claim in some way, and answer all else as the cluster in
memory does. Of what is done in the turns of others the watch is told some removals. -/
structure RemovalWatch (answer : Surroundings) (own : Nat) (c : String)
    (Turn : World → World → Prop) (news : World → World → Option (Ending Claim))
    (Heard : World → Option (Ending Claim) → Prop) : Prop where
  swift : answer.Swift
  same : ∀ w r, (∀ k selector, r ≠ .watch k selector) → answer w r = w.answer r
  opens : ∀ {w w'}, w.cluster.claims.Sound →
    answer w (.watch .claim (.name c)) = some (own, w') → Heard w' none
  keeps : ∀ {w w'}, Turn w w' → w.cluster.claims.Sound → w'.cluster.claims.Sound
  still : ∀ w, Turn w w
  reports : Reports .claim own deletionVerdict Turn news Heard
  satisfies : ∀ {w w' e}, news w w' = some e → ∃ o, e = .satisfied o
  silent : ∀ w, news w w = none

section

variable {answer : Surroundings} {Turn : World → World → Prop}
  {news : World → World → Option (Ending Claim)} {Heard : World → Option (Ending Claim) → Prop}
  {s : Settings} {c : String} {own : Nat} {w w' v v' u u' : World}
  {reply : Except ClusterFault Claim} {t₁ t₂ t₃ : List (Event Unit)}
  {q : Program (Except Failure Unit)}

/-- A wait for a deletion, from the opening of its watch to the look at the claim. -/
theorem Paced.at_look (hwatch : RemovalWatch answer own c Turn news Heard)
    (hs : w.cluster.claims.Sound)
    (hothers : OthersDo Turn (t₁ ++ .asked () (.watch .claim (.name c)) v own v' ::
      (t₂ ++ .asked () (.getClaim c) u reply u' :: t₃)))
    (h : Paced answer (waitForClaimDeletion s c).run w
      (t₁ ++ .asked () (.watch .claim (.name c)) v own v' ::
        (t₂ ++ .asked () (.getClaim c) u reply u' :: t₃)) q w') :
    u' = u ∧ reply = u.cluster.claims.get c ∧
      UpToDate (u.clock + s.deleteTimeout) Heard u
        (newsBefore (u.clock + s.deleteTimeout) news t₂) ∧
      Paced answer (afterClaimLook s c own reply) u t₃ q w' := by
  rw [waitForClaimDeletion_eq] at h
  obtain ⟨hidle₁, hbefore, hopened, hrest⟩ := h.at_question
    (P := fun r => r = .watch .claim (.name c)) rfl asks_afterWatch
  obtain ⟨hidle₂, hwaited, hlooked, hafter⟩ := hrest.at_question
    (P := fun r => r = .getClaim c) rfl asks_afterClaimLook
  have hsound : v.cluster.claims.Sound :=
    hbefore.kept_of_idle (P := fun w => w.cluster.claims.Sound) hwatch.keeps hothers.left hidle₁ hs
  have hlook : ∀ w, answer w (.getClaim c) = some (w.cluster.claims.get c, w) :=
    fun w => hwatch.same w _ nofun
  rw [hlook] at hlooked
  obtain ⟨rfl, rfl⟩ := Prod.mk.inj (Option.some.inj hlooked)
  have hready : ∀ w, answer w (.getClaim c) ≠ none := by
    intro w
    rw [hlook]
    exact Option.some_ne_none _
  have hopen : UpToDate (u.clock + s.deleteTimeout) Heard v' none :=
    ⟨fun _ => hwatch.opens hsound hopened, fun _ => rfl⟩
  have hnow := hopen.idle hwatch.reports hready hothers.right.tail.left hidle₂ hwaited
  rw [Option.none_or] at hnow
  exact ⟨rfl, rfl, hnow, hafter⟩

/-- **A wait for a deletion succeeds if the claim was absent when it was looked for, or if its watch
was told of a removal in time**; then it does so at once. Else it fails when its time is up. -/
theorem Paced.awaited_deletion (hwatch : RemovalWatch answer own c Turn news Heard)
    (hs : w.cluster.claims.Sound)
    (hothers : OthersDo Turn (t₁ ++ .asked () (.watch .claim (.name c)) v own v' ::
      (t₂ ++ .asked () (.getClaim c) u reply u' :: t₃)))
    (h : Paced answer (waitForClaimDeletion s c).run w
      (t₁ ++ .asked () (.watch .claim (.name c)) v own v' ::
        (t₂ ++ .asked () (.getClaim c) u reply u' :: t₃)) q w') :
    let first := newsBefore (u.clock + s.deleteTimeout) news
      (t₂ ++ .asked () (.getClaim c) u reply u' :: t₃)
    (q.atOnce answer w' = some (.ok ()) ↔
      u.cluster.claims.contains c = false ∨ first.isSome = true) ∧
    (¬ (u.cluster.claims.contains c = false ∨ first.isSome = true) →
      u.clock + s.deleteTimeout ≤ w'.clock → q.atOnce answer w' = some (.error (.timeout
        ("deletion of PersistentVolumeClaim " ++ c) (.ofMillis s.deleteTimeout)))) := by
  intro first
  have hlater := hothers.right.tail.right.tail
  obtain ⟨rfl, rfl, hfound, hrest⟩ := h.at_look hwatch hs hothers
  -- The look itself is no news.
  have hnews : (newsBefore (u'.clock + s.deleteTimeout) news t₂).or
      (newsBefore (u'.clock + s.deleteTimeout) news t₃) = first := by
    show _ = newsBefore _ _ (t₂ ++ _ :: t₃)
    rw [newsBefore_append, newsBefore_cons, newsBefore_singleton]
    show _ = Option.or _ (Option.or (if _ then news u' u' else none) _)
    rw [hwatch.silent, ite_self, Option.none_or]
  cases hget : u'.cluster.claims.get c with
  | error fault =>
    obtain ⟨rfl, habsent⟩ := get_eq_error_iff.mp hget
    rw [hget] at hrest
    replace hrest : Paced answer (.ask (.dropWatch .claim own) fun _ => .done (.ok ()))
      u' t₃ q w' := hrest
    have hready : ∀ w, answer w (.dropWatch .claim own) ≠ none := by
      intro w
      rw [hwatch.same w (.dropWatch .claim own) nofun]
      exact Option.some_ne_none _
    have hgone : u'.cluster.claims.contains c = false ∨ first.isSome = true := .inl habsent
    exact ⟨iff_of_true (hrest.atOnce_of_ready hready) hgone, fun hnot => absurd hgone hnot⟩
  | ok o =>
    rw [hget] at hrest
    have hthere : u'.cluster.claims.contains c = true :=
      Option.isSome_iff_exists.mpr ⟨o, get_eq_ok_iff.mp hget⟩
    have hends : q.atOnce answer w' =
        (first.or (if u'.clock + s.deleteTimeout ≤ w'.clock then some .timedOut else none)).map
          (awaitedDeletion s c) := by
      rw [← hnews]
      exact Paced.awaited_for hwatch.reports (fun w _ => hwatch.same w (.await ..) nofun)
        (fun w => hwatch.same w .now nofun) hwatch.still hwatch.swift hlater hfound hrest
    rw [hthere, hends]
    cases hfirst : first with
    | none =>
      refine ⟨iff_of_false ?_ ?_, fun _ htime => ?_⟩
      · split <;> exact fun h => nomatch h
      · rintro (h | h) <;> cases h
      · rw [if_pos htime]
        rfl
    | some ending =>
      obtain ⟨o', rfl⟩ : ∃ o, ending = .satisfied o := by
        obtain ⟨e, -, he⟩ := List.exists_of_findSome?_eq_some hfirst
        split at he
        · exact hwatch.satisfies he
        · cases he
      exact ⟨iff_of_true rfl (.inr rfl), fun hnot => absurd (.inr rfl) hnot⟩

end

/-! ## In the cluster in memory -/

/-- In the cluster in memory a watch on a claim is told of every removal. -/
theorem removalWatch_answer (own : Nat) (c : String) :
    RemovalWatch World.answer own c (StoreTurn .claim own) (removal c) (HeardOfClaim own c) where
  swift := World.swift_answer
  same _ _ _ := rfl
  opens hs hopened := by
    obtain ⟨rfl, rfl⟩ := Prod.mk.inj (Option.some.inj hopened)
    exact heardOfClaim_watch hs c
  keeps hturn hs := ClientStep.sound hturn hs
  still _ := .idle
  reports := reports_removal own c
  satisfies := removal_eq_satisfied
  silent _ := removal_eq_none_of_same rfl

/-- **A wait for a deletion misses none, and reports none that did not happen.** Others may delete
and create the claim at will, between any two questions of the wait. It succeeds exactly if the
claim was absent when it was looked for, or was removed after the watch was opened and before
`deleteTimeout` had gone by since the look; then it does so at once, however far it has come. If it
has succeeded, the claim was absent after one of the turns. Else it fails when its time is up. -/
theorem waitForClaimDeletion_ok_iff {s : Settings} {c : String} {own : Nat}
    {w w' v v' u u' : World} {reply : Except ClusterFault Claim} {t₁ t₂ t₃ : List (Event Unit)}
    {q : Program (Except Failure Unit)} (hw : w.Reachable)
    (hothers : OthersDo (StoreTurn .claim own)
      (t₁ ++ .asked () (.watch .claim (.name c)) v own v' ::
        (t₂ ++ .asked () (.getClaim c) u reply u' :: t₃)))
    (h : Paced World.answer (waitForClaimDeletion s c).run w
      (t₁ ++ .asked () (.watch .claim (.name c)) v own v' ::
        (t₂ ++ .asked () (.getClaim c) u reply u' :: t₃)) q w') :
    let since := t₂ ++ .asked () (.getClaim c) u reply u' :: t₃
    let deadline := u.clock + s.deleteTimeout
    let gone := u.cluster.claims.contains c = false ∨
      ∃ e ∈ since, e.Removes c ∧ e.after.clock < deadline
    (q.atOnce World.answer w' = some (.ok ()) ↔ gone) ∧
    (q = .done (.ok ()) → ∃ e ∈ since, e.after.cluster.claims.contains c = false) ∧
    (¬ gone → deadline ≤ w'.clock →
      q.atOnce World.answer w' = some (.error (.timeout
        ("deletion of PersistentVolumeClaim " ++ c) (.ofMillis s.deleteTimeout)))) := by
  intro since deadline gone
  have hlooked := (h.at_look (removalWatch_answer own c) hw.sound.claims hothers).1
  have hends := h.awaited_deletion (removalWatch_answer own c) hw.sound.claims hothers
  dsimp only at hends
  rw [newsBefore_removal_isSome_iff] at hends
  obtain ⟨hok, htimeout⟩ := hends
  refine ⟨hok, ?_, htimeout⟩
  rintro rfl
  rcases hok.mp rfl with habsent | ⟨e, he, hremoves, -⟩
  · exact ⟨_, List.mem_append_right _ List.mem_cons_self, hlooked ▸ habsent⟩
  · exact ⟨e, he, hremoves.2⟩

/-- What clients may do to claims in a turn, whichever watch is not theirs. -/
def ClaimTurn (w w' : World) : Prop := ∀ own, StoreTurn .claim own w w'

theorem runnersTurn_claimTurn : RunnersTurn ClaimTurn where
  notice w _ := .finishJobs (show Kind.claim ≠ .pod from nofun) w
  rest _ _ _ := .same rfl

/-- **So the runner finds**: a wait for a deletion that it runs beside other clients, to the end,
succeeds exactly if the claim was absent when it was looked for, or was removed in time. -/
theorem runBeside_waitForClaimDeletion {β : Type} {turns : Nat} {entries : List (Entry β)}
    {s : Settings} {c : String} {w : World} {o : Outcome (Except Failure Unit) β}
    (hw : w.Reachable)
    (hclients : ∀ e ∈ entries, e.step.Does (Relation.ReflTransGen (InNoTime ClaimTurn)))
    (h : runBeside turns none (waitForClaimDeletion s c).run entries w = some o) :
    ∃ t₁ v own v' t₂ u reply u' t₃ q,
      Paced World.answer (waitForClaimDeletion s c).run w
        (t₁ ++ .asked () (.watch .claim (.name c)) v own v' ::
          (t₂ ++ .asked () (.getClaim c) u reply u' :: t₃)) q o.world ∧
      (o.main.result = some (.ok ()) ↔ u.cluster.claims.contains c = false ∨
        ∃ e ∈ t₂ ++ .asked () (.getClaim c) u reply u' :: t₃,
          e.Removes c ∧ e.after.clock < u.clock + s.deleteTimeout) := by
  have hpauses : (waitForClaimDeletion s c).run.Asks fun r => r ≠ .pause := by
    rw [waitForClaimDeletion_eq]
    refine ⟨nofun, fun own => ⟨nofun, fun reply => ?_⟩⟩
    cases reply with
    | error fault => exact ⟨nofun, fun _ => trivial⟩
    | ok o => exact ⟨nofun, fun _ => ⟨nofun, fun _ => trivial⟩⟩
  obtain ⟨t, r, hrun, hothers, hresult⟩ :=
    exists_paced_of_runBeside hpauses hclients runnersTurn_claimTurn h
  -- A run to the end has opened its watch and looked for the claim.
  have hasked := hrun
  rw [waitForClaimDeletion_eq] at hasked
  obtain ⟨t₁, t', v, own, v', rfl, hrest⟩ := hasked.exists_answered
  obtain ⟨t₂, t₃, u, reply, u', rfl, -⟩ := hrest.exists_answered
  have hends := hrun.awaited_deletion (removalWatch_answer own c) hw.sound.claims
    fun x y hmem => hothers x y hmem own
  dsimp only at hends
  rw [newsBefore_removal_isSome_iff] at hends
  refine ⟨t₁, v, own, v', t₂, u, reply, u', t₃, _, hrun, ?_⟩
  rw [hresult]
  exact hends.1

/-- A cluster with the claim of the orders. -/
def ordersWorld : World :=
  (World.request { cluster := { ns := "dev" } } (·.createClaim "orders" "1Gi" .empty)).2

theorem reachable_ordersWorld : ordersWorld.Reachable :=
  .turn (.start (w := { cluster := { ns := "dev" } }) rfl rfl)
    (World.others_of_answer (r := .createClaim "orders" "1Gi" .empty) rfl)

/-- The claim is deleted and created again between the opening of the watch and the look. -/
theorem waitForClaimDeletion_ok_iff_orders :
    ordersWorld.Reachable ∧ ∃ own v' t₂ u q,
      Paced World.answer (waitForClaimDeletion {} "orders").run ordersWorld
        ([] ++ .asked () (.watch .claim (.name "orders")) ordersWorld own v' ::
          (t₂ ++ [.asked () (.getClaim "orders") u (u.cluster.claims.get "orders") u])) q u ∧
      OthersDo (StoreTurn .claim own)
        ([] ++ .asked () (.watch .claim (.name "orders")) ordersWorld own v' ::
          (t₂ ++ [.asked () (.getClaim "orders") u (u.cluster.claims.get "orders") u])) ∧
      u.cluster.claims.contains "orders" = true ∧ q.atOnce World.answer u = some (.ok ()) := by
  let opened := ordersWorld.modifyCluster
    (·.withStore .claim (ordersWorld.cluster.claims.watch (.name "orders")).2)
  let deleted := (opened.request (·.deleteClaim "orders")).2
  let created := (deleted.request (·.createClaim "orders" "1Gi" .empty)).2
  have hrun : Paced World.answer (waitForClaimDeletion {} "orders").run ordersWorld
      ([] ++ .asked () (.watch .claim (.name "orders")) ordersWorld 0 opened ::
        ([.other opened deleted, .other deleted created] ++
          [.asked () (.getClaim "orders") created (created.cluster.claims.get "orders") created]))
      _ created := .asked rfl (.other rfl (.other rfl (.asked rfl (.start _ _))))
  have hothers : OthersDo (StoreTurn .claim 0)
      ([] ++ .asked () (.watch .claim (.name "orders")) ordersWorld 0 opened ::
        ([.other opened deleted, .other deleted created] ++
          [.asked () (.getClaim "orders") created (created.cluster.claims.get "orders") created])) := by
    intro x y hmem
    simp only [List.nil_append, List.cons_append, List.mem_cons, List.not_mem_nil, or_false,
      reduceCtorEq, false_or, Event.other.injEq] at hmem
    rcases hmem with ⟨rfl, rfl⟩ | ⟨rfl, rfl⟩
    · exact World.storeTurn_of_answer (r := .deleteClaim "orders") rfl trivial
    · exact World.storeTurn_of_answer (r := .createClaim "orders" "1Gi" .empty) rfl trivial
  have hthere : created.cluster.claims.contains "orders" = true := by decide +kernel
  have hremoves : Event.Removes "orders" (.other opened deleted) := by
    constructor <;> decide +kernel
  refine ⟨reachable_ordersWorld, 0, opened, _, created, _, hrun, hothers, hthere, ?_⟩
  have hexact := waitForClaimDeletion_ok_iff reachable_ordersWorld hothers hrun
  exact hexact.1.mpr (.inr ⟨_, List.mem_cons_self, hremoves, by decide +kernel⟩)

end InnerLoop
