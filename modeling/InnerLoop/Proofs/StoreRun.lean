import InnerLoop.Proofs.Clients

/-!
# Runs of a store

A store is written to in place: a write looks, stamps, files and tells the watches one thing after
the other, and may be given up on its way.

- `StoreWrite`, `StoreM.carryOut`: the writes, and the steps that each of them takes on the store.
- `Store.attempt_eq`: **a write that is given up changed nothing**, and one that is carried out did
  what the operation of its name answers.
- `StoreAction`, `Store.after`, `Store.afterAll`: all that is done to a store, one action after the
  other.
- `Store.history`: what the writes of a run came to, in their order.
- `Store.Acted`: what an action can come to, and `Store.acted`: nothing else happens. From it
  `Store.sound_after` and `Store.sound_afterAll`: the books stay in order through every run.
-/

namespace InnerLoop

instance : LawfulResource Pod := ⟨fun _ _ => rfl⟩
instance : LawfulResource Secret := ⟨fun _ _ => rfl⟩
instance : LawfulResource BuildConfig := ⟨fun _ _ => rfl⟩

/-- A write that is asked of a store. -/
inductive StoreWrite (κ : Type) where
  | create (o : κ)
  | upsert (o : κ)
  | replace (o : κ)
  | modify (name : String) (change : κ → κ)
  | remove (name : String)

variable {κ : Type} [Resource κ]

/-! ## Writes in place -/

/-- Work on a store in place, which may be given up on its way. -/
abbrev StoreM (κ : Type) [Resource κ] := ExceptT ClusterFault (StateM (Store κ))

namespace StoreM

variable {α β : Type}

/-- What work on a store comes to, and the store that it leaves. -/
def runOn (m : StoreM κ α) (st : Store κ) : Except ClusterFault α × Store κ :=
  (ExceptT.run m).run st

@[simp] theorem runOn_pure (a : α) (st : Store κ) : runOn (pure a) st = (.ok a, st) := rfl

@[simp] theorem runOn_throw (fault : ClusterFault) (st : Store κ) :
    runOn (throw fault : StoreM κ α) st = (.error fault, st) := rfl

@[simp] theorem runOn_get (st : Store κ) : runOn (get : StoreM κ (Store κ)) st = (.ok st, st) := rfl

@[simp] theorem runOn_modify (f : Store κ → Store κ) (st : Store κ) :
    runOn (modify f : StoreM κ PUnit) st = (.ok ⟨⟩, f st) := rfl

@[simp] theorem runOn_bind (m : StoreM κ α) (f : α → StoreM κ β) (st : Store κ) :
    runOn (m >>= f) st =
      match runOn m st with
      | (.ok a, st') => runOn (f a) st'
      | (.error fault, st') => (.error fault, st') := by
  show (ExceptT.bindCont f (runOn m st).1).run (runOn m st).2 = _
  cases runOn m st with
  | mk result st' => cases result <;> rfl

/-- The object of a name, if there is one. -/
def look (name : String) : StoreM κ κ := do
  match (← get).objects.find? name with
  | some o => return o
  | none => throw (.notFound (Resource.kind κ) name)

/-- Gives an object the next version, which is then used up. -/
def stamp (o : κ) : StoreM κ κ := do
  let version := (← get).nextVersion
  modify fun st => { st with nextVersion := version + 1 }
  return Resource.withVersion (toString version) o

/-- Stamps an object, files it under its name and tells the watches. -/
def file (o : κ) : StoreM κ κ := do
  let o ← stamp o
  let name := Resource.nameOf o
  let existed := (← get).contains name
  modify fun st => { st with objects := st.objects.insert name o }
  modify (·.publish (.object (if existed then .modified else .added) o))
  return o

/-- The steps of a write. -/
def carryOut : StoreWrite κ → StoreM κ κ
  | .upsert o => file o
  | .create o => do
    let name := Resource.nameOf o
    if (← get).contains name then throw (.conflict (Resource.kind κ) name)
    file o
  | .replace o => do
    let name := Resource.nameOf o
    let current ← look name
    match Resource.versionOf o with
    | none => file o
    | some sent =>
      if Resource.versionOf current = some sent then file o
      else throw (.conflict (Resource.kind κ) name)
  | .modify name change => do
    let o ← look name
    file (change o)
  | .remove name => do
    let found := (← get).objects.find? name
    -- The entry goes before it is known whether there was one.
    modify fun st => { st with objects := st.objects.erase name }
    match found with
    | none => throw (.notFound (Resource.kind κ) name)
    | some o =>
      modify (·.publish (.object .deleted o))
      return o

@[simp] theorem runOn_file (o : κ) (st : Store κ) :
    runOn (file o) st = (.ok (st.upsert o).1, (st.upsert o).2) := rfl

@[simp] theorem runOn_look (name : String) (st : Store κ) :
    runOn (look name) st = (st.get name, st) := by
  unfold look Store.get
  simp only [runOn_bind, runOn_get]
  cases st.objects.find? name with
  | none => rfl
  | some o => rfl

end StoreM

namespace Store

/-- What a write is answered, and the store that it leaves. -/
def attempt (st : Store κ) (w : StoreWrite κ) : Except ClusterFault κ × Store κ :=
  (StoreM.carryOut w).runOn st

/-- The operation that a write asks for. -/
def grant (st : Store κ) : StoreWrite κ → Except ClusterFault (κ × Store κ)
  | .create o => st.create o
  | .upsert o => .ok (st.upsert o)
  | .replace o => st.replace o
  | .modify name change => st.modify name change
  | .remove name => st.remove name

/-- Without the entry of a name that has none a map is what it was. -/
theorem erase_of_find?_eq_none {α : Type} {m : SortedMap String α} {name : String}
    (h : m.find? name = none) : m.erase name = m := by
  ext j : 1
  rw [SortedMap.find?_erase]
  split
  case isTrue hj =>
    have : j = name := Std.compare_eq_iff_eq.mp hj
    rw [this, h]
  case isFalse => rfl

/-- **A write that is given up changed nothing**, and one that is carried out did what its operation
answers. -/
theorem attempt_eq (st : Store κ) (w : StoreWrite κ) :
    st.attempt w =
      match st.grant w with
      | .ok (o, st') => (.ok o, st')
      | .error fault => (.error fault, st) := by
  unfold attempt
  cases w with
  | upsert o => exact StoreM.runOn_file o st
  | create o =>
    simp only [StoreM.carryOut, grant, create, StoreM.runOn_bind, StoreM.runOn_get]
    split
    · exact StoreM.runOn_throw _ st
    · exact StoreM.runOn_file o st
  | replace o =>
    simp only [StoreM.carryOut, grant, replace, StoreM.runOn_bind, StoreM.runOn_look]
    cases st.get (Resource.nameOf o) with
    | error fault => rfl
    | ok current =>
      cases Resource.versionOf o with
      | none => exact StoreM.runOn_file o st
      | some sent =>
        by_cases hsame : Resource.versionOf current = some sent
        · simp only [bind, Except.bind, if_pos hsame]
          exact StoreM.runOn_file o st
        · simp only [bind, Except.bind, if_neg hsame]
          exact StoreM.runOn_throw _ st
  | modify name change =>
    simp only [StoreM.carryOut, grant, modify, StoreM.runOn_bind, StoreM.runOn_look]
    cases st.get name with
    | error fault => rfl
    | ok o => exact StoreM.runOn_file _ st
  | remove name =>
    simp only [StoreM.carryOut, grant, remove, get, StoreM.runOn_bind, StoreM.runOn_get,
      StoreM.runOn_modify]
    cases h : st.objects.find? name with
    | none =>
      -- Nothing was there to go.
      have hsame : st.objects.erase name = st.objects := erase_of_find?_eq_none h
      simp only [StoreM.runOn_throw, hsame]
      rfl
    | some o =>
      simp only [StoreM.runOn_bind, StoreM.runOn_modify, StoreM.runOn_pure]
      rfl

theorem attempt_of_grant_ok {st st' : Store κ} {w : StoreWrite κ} {o : κ}
    (h : st.grant w = .ok (o, st')) : st.attempt w = (.ok o, st') := by
  rw [attempt_eq, h]

theorem attempt_of_grant_error {st : Store κ} {w : StoreWrite κ} {fault : ClusterFault}
    (h : st.grant w = .error fault) : st.attempt w = (.error fault, st) := by
  rw [attempt_eq, h]

end Store

/-! ## Runs -/

/-- What is done to a store. -/
inductive StoreAction (κ : Type) where
  | write (w : StoreWrite κ)
  | watch (s : Selector)
  | watchLater (s : Selector)
  | startWatch (handle : Nat)
  | takeEvents (handle : Nat)
  | dropWatch (handle : Nat)
  | closeWatches

namespace Store

/-- The store after an action. -/
def after (st : Store κ) : StoreAction κ → Store κ
  | .write w => (st.attempt w).2
  | .watch s => (st.watch s).2
  | .watchLater s => (st.watchLater s).2
  | .startWatch handle => st.startWatch handle
  | .takeEvents handle => st.takeEvents handle
  | .dropWatch handle => st.dropWatch handle
  | .closeWatches => st.closeWatches

/-- The store after a run. -/
def afterAll (st : Store κ) (actions : List (StoreAction κ)) : Store κ := actions.foldl after st

/-- What becomes of an object's name when the object is filed. -/
def changeOf (st : Store κ) (o : κ) : Change :=
  if st.contains (Resource.nameOf o) then .modified else .added

/-- What a write that is answered with an object did to the name of this object. -/
def changeBy (st : Store κ) (o : κ) : StoreWrite κ → Change
  | .remove _ => .deleted
  | _ => st.changeOf o

/-- What an action did to the objects: a write that is not given up does one thing. -/
def reported (st : Store κ) : StoreAction κ → List (WatchEvent κ)
  | .write w =>
    match (st.attempt w).1 with
    | .ok o => [.object (st.changeBy o w) o]
    | .error _ => []
  | _ => []

/-- What a run did to the objects, in the order in which it did so. -/
def history (st : Store κ) : List (StoreAction κ) → List (WatchEvent κ)
  | [] => []
  | a :: actions => st.reported a ++ (st.after a).history actions

@[simp] theorem afterAll_nil (st : Store κ) : st.afterAll [] = st := rfl

@[simp] theorem afterAll_cons (st : Store κ) (a : StoreAction κ) (actions : List (StoreAction κ)) :
    st.afterAll (a :: actions) = (st.after a).afterAll actions := rfl

/-! ## What an action comes to -/

/-- What an action can come to, by what it did to the objects and the store that it leaves. -/
inductive Acted (st : Store κ) : List (WatchEvent κ) → Store κ → Prop
  | filed (o : κ) :
    Acted st [.object (st.changeOf (st.upsert o).1) (st.upsert o).1] (st.upsert o).2
  | removed {name : String} {o : κ} (h : st.objects.find? name = some o) :
    Acted st [.object .deleted o] (st.without name o)
  | aside {st' : Store κ} (objects : st'.objects = st.objects)
    (nextVersion : st'.nextVersion = st.nextVersion) : Acted st [] st'

variable {st st' : Store κ}

/-- A write that is granted is carried out. -/
theorem write_of_grant_ok {w : StoreWrite κ} {o : κ} (h : st.grant w = .ok (o, st')) :
    st.after (.write w) = st' ∧ st.reported (.write w) = [.object (st.changeBy o w) o] := by
  simp only [after, reported, attempt_of_grant_ok h, and_self]

/-- A write that is not granted changes nothing and has nothing to report. -/
theorem write_of_grant_error {w : StoreWrite κ} {fault : ClusterFault}
    (h : st.grant w = .error fault) :
    st.after (.write w) = st ∧ st.reported (.write w) = [] := by
  simp only [after, reported, attempt_of_grant_error h, and_self]

theorem Acted.of_upsert {o o' : κ} (h : st.upsert o = (o', st')) :
    Acted st [.object (st.changeOf o') o'] st' := by
  have ho : (st.upsert o).1 = o' := congrArg Prod.fst h
  have hst : (st.upsert o).2 = st' := congrArg Prod.snd h
  rw [← ho, ← hst]
  exact .filed o

/-- A write that is granted files an object or removes one. -/
theorem Acted.of_grant {w : StoreWrite κ} {o : κ} (h : st.grant w = .ok (o, st')) :
    Acted st [.object (st.changeBy o w) o] st' := by
  cases w with
  | create => exact .of_upsert (create_eq_ok h)
  | upsert => exact .of_upsert (Except.ok.inj h)
  | replace => exact .of_upsert (replace_eq_ok h).1
  | modify =>
    obtain ⟨_, h⟩ := modify_eq_ok h
    exact .of_upsert h
  | remove =>
    obtain ⟨hfind, rfl⟩ := remove_eq_ok h
    exact .removed hfind

/-- **Nothing else happens**: an action files an object or removes one, and says so, or leaves the
objects and the versions alone. -/
theorem acted (st : Store κ) (a : StoreAction κ) : Acted st (st.reported a) (st.after a) := by
  cases a with
  | write w =>
    cases hgrant : st.grant w with
    | ok granted =>
      obtain ⟨hafter, hreported⟩ := write_of_grant_ok hgrant
      rw [hafter, hreported]
      exact .of_grant hgrant
    | error fault =>
      obtain ⟨hafter, hreported⟩ := write_of_grant_error hgrant
      rw [hafter, hreported]
      exact .aside rfl rfl
  | _ => exact .aside rfl rfl

/-- An action is one change of the store, or none. -/
theorem step_after (st : Store κ) (a : StoreAction κ) :
    st.after a = st ∨ StoreStep st (st.after a) := by
  cases a with
  | write w =>
    cases hgrant : st.grant w with
    | error fault => exact .inl (write_of_grant_error hgrant).1
    | ok granted =>
      rw [(write_of_grant_ok hgrant).1]
      refine .inr ?_
      cases w with
      | create => exact .create hgrant
      | upsert o =>
        cases hgrant
        exact .upsert o
      | replace => exact .replace hgrant
      | modify => exact .modify hgrant
      | remove => exact .remove hgrant
  | watch s => exact .inr (.watch s)
  | watchLater s => exact .inr (.watchLater s)
  | startWatch handle => exact .inr (.startWatch handle)
  | takeEvents handle => exact .inr (.takeEvents handle)
  | dropWatch handle => exact .inr (.dropWatch handle)
  | closeWatches => exact .inr .closeWatches

theorem sound_after [LawfulResource κ] (hs : st.Sound) (a : StoreAction κ) :
    (st.after a).Sound := by
  rcases st.step_after a with hsame | hstep
  · rw [hsame]
    exact hs
  · exact hstep.sound hs

/-- The books stay in order through every run. -/
theorem sound_afterAll [LawfulResource κ] (hs : st.Sound) (actions : List (StoreAction κ)) :
    (st.afterAll actions).Sound := by
  induction actions generalizing st with
  | nil => exact hs
  | cons a actions ih => exact ih (sound_after hs a)

end Store

end InnerLoop
