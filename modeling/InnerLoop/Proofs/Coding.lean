import InnerLoop.Json.Decode

/-!
# Reading back what was written

A value is written as a text and read again. What comes back is told here part by part, for plain
values, lists, maps and the members of an object, so that a record is coded if its parts are.

- `Proper`: no object in a value has a member twice. `value?_written`: **such a value is read back
  as it was written**; `Written.proper_of_value?`: all that is read is proper.
- `Coded`: what a decoder reads of what was written, and of anything; its instances for plain
  values, lists and maps of texts.
- `fieldsNamed`, `lastOf`: what a record writes under a name, and what is read of that;
  `optional_membersOf` and its like reduce reading a member to the two.
- `Whole`, `fits_of_optional` and its like: what is read of a member of any value.
- `Preserved`: a value of any shape, as opaque fields hold it.

Null is no value of a field: it is read as absence, so an opaque field that held it would lose it.
-/

namespace InnerLoop.Json

/-! ## Values of which no object has a member twice -/

mutual

/-- No object in a value has two members of one name. -/
def Proper : Json → Prop
  | .list l => ProperItems l
  | .record ms => (ms.map (·.1)).Nodup ∧ ProperMembers ms
  | _ => True

/-- The items of a list are proper. -/
def ProperItems : List Json → Prop
  | [] => True
  | v :: r => Proper v ∧ ProperItems r

/-- The values of the members of an object are proper. -/
def ProperMembers : List (String × Json) → Prop
  | [] => True
  | (_, v) :: r => Proper v ∧ ProperMembers r

end

theorem set_of_not_mem {name : String} {value : Json} {ms : Members}
    (h : name ∉ ms.map (·.1)) : set name value ms = ms ++ [(name, value)] := by
  induction ms with
  | nil => rfl
  | cons m r ih =>
    obtain ⟨n, v⟩ := m
    simp only [List.map_cons, List.mem_cons, not_or] at h
    rw [set, if_neg (Ne.symm h.1), ih h.2]
    rfl

/-- Setting a member makes no name come twice. -/
theorem nodup_set {name : String} {value : Json} {ms : Members} (h : (ms.map (·.1)).Nodup) :
    ((set name value ms).map (·.1)).Nodup := by
  by_cases hmem : name ∈ ms.map (·.1)
  · have hnames : (set name value ms).map (·.1) = ms.map (·.1) := by
      clear h
      induction ms with
      | nil => cases hmem
      | cons m r ih =>
        obtain ⟨n, v⟩ := m
        unfold set
        by_cases hn : n = name
        · rw [if_pos hn]
          rfl
        · rw [if_neg hn, List.map_cons, List.map_cons]
          refine congrArg (n :: ·) (ih ?_)
          exact (List.mem_cons.mp hmem).resolve_left (Ne.symm hn)
    rw [hnames]
    exact h
  · rw [set_of_not_mem hmem, List.map_append]
    refine List.nodup_append.mpr ⟨h, List.pairwise_singleton _ _, ?_⟩
    intro n hn n' hn' heq
    have hname : n' = name := List.mem_singleton.mp hn'
    exact hmem (hname ▸ heq ▸ hn)

theorem properMembers_set {name : String} {value : Json} {ms : Members} (hvalue : value.Proper)
    (h : ProperMembers ms) : ProperMembers (set name value ms) := by
  induction ms with
  | nil => exact ⟨hvalue, trivial⟩
  | cons m r ih =>
    obtain ⟨n, v⟩ := m
    unfold set
    split
    · exact ⟨hvalue, h.2⟩
    · exact ⟨h.1, ih h.2⟩

mutual

/-- **A value is read back as it was written**, if it is proper. -/
theorem value?_written : (j : Json) → j.Proper → j.written.value? = some j
  | .null, _ | .bool _, _ | .number _ _, _ | .minusZero, _ | .text _, _ => rfl
  | .list l, h => by
    show (Written.itemValues? (writtenItems l)).map _ = _
    rw [itemValues?_written l h]
    rfl
  | .record ms, h => by
    show (Written.memberValues? [] (writtenMembers ms)).map _ = _
    rw [memberValues?_written ms [] h.2 h.1 (fun _ _ => List.not_mem_nil)]
    rfl

theorem itemValues?_written : (l : List Json) → ProperItems l →
    Written.itemValues? (writtenItems l) = some l
  | [], _ => rfl
  | v :: r, h => by
    unfold writtenItems Written.itemValues?
    rw [value?_written v h.1, itemValues?_written r h.2]
    rfl

theorem memberValues?_written : (ms : Members) → (before : Members) → ProperMembers ms →
    (ms.map (·.1)).Nodup → (∀ name ∈ ms.map (·.1), name ∉ before.map (·.1)) →
    Written.memberValues? before (writtenMembers ms) = some (before ++ ms)
  | [], before, _, _, _ => by
    rw [List.append_nil]
    rfl
  | (name, v) :: r, before, h, hd, hfresh => by
    obtain ⟨hname, hd⟩ := List.nodup_cons.mp hd
    unfold writtenMembers Written.memberValues?
    rw [value?_written v h.1]
    show Written.memberValues? (set name v before) (writtenMembers r) = _
    rw [set_of_not_mem (hfresh name List.mem_cons_self), memberValues?_written r _ h.2 hd,
      List.append_assoc, List.singleton_append]
    intro n hn
    rw [List.map_append, List.mem_append, not_or]
    refine ⟨hfresh n (List.mem_cons_of_mem _ hn), ?_⟩
    intro heq
    cases List.mem_singleton.mp heq
    exact hname hn

end

end InnerLoop.Json

namespace InnerLoop.Written

open Json (Proper ProperItems ProperMembers)

mutual

/-- What is read is proper, whatever was written: a member that is repeated has its last value. -/
theorem proper_of_value? : (w : Written) → {j : Json} → w.value? = some j → j.Proper
  | .null, _, h | .bool _, _, h | .number _ _, _, h | .minusZero, _, h | .text _, _, h
  | .cut, _, h => by
    cases h
    trivial
  | .blank, _, h => by
    cases h
    exact ⟨List.nodup_nil, trivial⟩
  | .illegible, _, h => by cases h
  | .list l, _, h => by
    obtain ⟨vs, hvs, rfl⟩ := Option.map_eq_some_iff.mp h
    exact properItems_of_itemValues? l hvs
  | .record ms, _, h => by
    obtain ⟨r, hr, rfl⟩ := Option.map_eq_some_iff.mp h
    exact properMembers_of_memberValues? ms [] List.nodup_nil trivial hr

theorem properItems_of_itemValues? : (l : List Written) → {vs : List Json} →
    itemValues? l = some vs → ProperItems vs
  | [], _, h => by
    cases h
    trivial
  | w :: r, _, h => by
    unfold itemValues? at h
    split at h
    · cases h
    · rename_i v hv
      obtain ⟨vs, hvs, rfl⟩ := Option.map_eq_some_iff.mp h
      exact ⟨proper_of_value? w hv, properItems_of_itemValues? r hvs⟩

theorem properMembers_of_memberValues? : (l : List (String × Written)) → (before : Json.Members) →
    (before.map (·.1)).Nodup → ProperMembers before → {ms : Json.Members} →
    memberValues? before l = some ms → (ms.map (·.1)).Nodup ∧ ProperMembers ms
  | [], _, hd, hp, _, h => by
    cases h
    exact ⟨hd, hp⟩
  | (name, w) :: r, before, hd, hp, _, h => by
    unfold memberValues? at h
    split at h
    · cases h
    · rename_i v hv
      exact properMembers_of_memberValues? r _ (Json.nodup_set hd)
        (Json.properMembers_set (proper_of_value? w hv) hp) h

end

end InnerLoop.Written

namespace InnerLoop.Json

/-! ## What is written of a value -/

theorem writtenItems_eq_map (l : List Json) : writtenItems l = l.map written := by
  induction l with
  | nil => rfl
  | cons v r ih => exact congrArg (v.written :: ·) ih

theorem writtenMembers_eq_map (ms : Members) :
    writtenMembers ms = ms.map fun m => (m.1, m.2.written) := by
  induction ms with
  | nil => rfl
  | cons m r ih => exact congrArg ((m.1, m.2.written) :: ·) ih

/-- A value is never cut off. -/
theorem isCut_written (j : Json) : j.written.isCut = false := by cases j <;> rfl

theorem filter_isCut_writtenItems (l : List Json) :
    (writtenItems l).filter (!·.isCut) = writtenItems l := by
  rw [writtenItems_eq_map, List.filter_eq_self]
  intro w hw
  obtain ⟨j, -, rfl⟩ := List.mem_map.mp hw
  rw [isCut_written]
  rfl

theorem filter_isCut_writtenMembers (ms : Members) :
    (writtenMembers ms).filter (!·.2.isCut) = writtenMembers ms := by
  rw [writtenMembers_eq_map, List.filter_eq_self]
  intro m hm
  obtain ⟨m, -, rfl⟩ := List.mem_map.mp hm
  show (!m.2.written.isCut) = true
  rw [isCut_written]
  rfl

/-- What is read of every value holds of all that is read of a list of them. -/
theorem forall_of_mapM {α : Type} {read : Decoder α} {p : α → Prop} {l : List Json} {as : List α}
    (hp : ∀ {j a}, read (written j) = some a → p a) (h : (l.map written).mapM read = some as) :
    ∀ a ∈ as, p a := by
  induction l generalizing as with
  | nil =>
    cases h
    exact List.forall_mem_nil _
  | cons j r ih =>
    rw [List.map_cons, List.mapM_cons] at h
    obtain ⟨a, ha, h⟩ := Option.bind_eq_some_iff.mp h
    obtain ⟨as, has, h⟩ := Option.bind_eq_some_iff.mp h
    cases h
    exact List.forall_mem_cons.mpr ⟨hp ha, ih has⟩

/-- All members have values, and none is cut off. -/
def Whole (ms : Written.Members) : Prop := ∀ m ∈ ms, ∃ j : Json, m.2 = j.written

theorem whole_writtenMembers (ms : Members) : Whole (writtenMembers ms) := by
  intro m hm
  rw [writtenMembers_eq_map] at hm
  obtain ⟨m, -, rfl⟩ := List.mem_map.mp hm
  exact ⟨m.2, rfl⟩

theorem Whole.breaksOff {ms : Written.Members} (h : Whole ms) : Written.breaksOff ms = false := by
  unfold Written.breaksOff
  rw [List.any_eq_false]
  intro m hm
  obtain ⟨j, hj⟩ := h m hm
  rw [hj, isCut_written]
  exact Bool.false_ne_true

/-! ## Codes -/

/-- What `read` reads of what `write` writes is what was written, if that `fits`, and all that it
reads fits. Null is kept for what is absent. -/
class Coded {α : Type} (write : α → Json) (read : Decoder α) (fits : outParam (α → Prop)) :
    Prop where
  read_write {a : α} : fits a → read (write a).written = some a
  fits_of_read {j : Json} {a : α} : read j.written = some a → fits a
  write_ne_null {a : α} : fits a → write a ≠ .null

/-- A whole number of 32 bits. -/
def IsInt32 (n : Int) : Prop := -Int.pow 2 31 ≤ n ∧ n ≤ Int.pow 2 31 - 1

/-- A whole number of 64 bits. -/
def IsInt64 (n : Int) : Prop := -Int.pow 2 63 ≤ n ∧ n ≤ Int.pow 2 63 - 1

instance (n : Int) : Decidable (IsInt32 n) := inferInstanceAs (Decidable (_ ∧ _))
instance (n : Int) : Decidable (IsInt64 n) := inferInstanceAs (Decidable (_ ∧ _))

instance : Coded .text asText fun _ => True where
  read_write _ := rfl
  fits_of_read _ := trivial
  write_ne_null _ := nofun

instance : Coded .text asAmount fun _ => True where
  read_write _ := rfl
  fits_of_read _ := trivial
  write_ne_null _ := nofun

instance : Coded .bool asBool fun _ => True where
  read_write _ := rfl
  fits_of_read _ := trivial
  write_ne_null _ := nofun

theorem coded_ofInt (lo hi : Int) :
    Coded ofInt (asIntBetween lo hi) fun n => lo ≤ n ∧ n ≤ hi where
  read_write h := if_pos h
  fits_of_read {j n} h := by
    cases j with
    | number m places =>
      cases places with
      | zero =>
        have h : (if lo ≤ m ∧ m ≤ hi then some m else none) = some n := h
        split at h
        · cases h
          assumption
        · cases h
      | succ => cases h
    | _ => cases h
  write_ne_null _ := nofun

instance : Coded ofInt asInt32 IsInt32 := coded_ofInt _ _
instance : Coded ofInt asInt64 IsInt64 := coded_ofInt _ _

section

variable {α : Type} {write : α → Json} {read : Decoder α} {fits : α → Prop}
  [Coded write read fits]

theorem mapM_read_write {l : List α} (h : ∀ a ∈ l, fits a) :
    (l.map fun a => (write a).written).mapM read = some l := by
  induction l with
  | nil => rfl
  | cons a r ih =>
    obtain ⟨ha, hr⟩ := List.forall_mem_cons.mp h
    have hread : read (write a).written = some a := Coded.read_write ha
    rw [List.map_cons, List.mapM_cons, hread, ih hr]
    rfl

instance : Coded (ofList write) (asList read) fun l => ∀ a ∈ l, fits a where
  read_write {l} h := by
    show ((writtenItems (l.map write)).filter (!·.isCut)).mapM read = _
    rw [filter_isCut_writtenItems, writtenItems_eq_map, List.map_map]
    exact mapM_read_write h
  fits_of_read {j l} h := by
    cases j with
    | list items =>
      have h : ((writtenItems items).filter (!·.isCut)).mapM read = some l := h
      rw [filter_isCut_writtenItems, writtenItems_eq_map] at h
      exact forall_of_mapM (Coded.fits_of_read write) h
    | _ => cases h
  write_ne_null _ := nofun

end

instance : Coded ofTexts (asList asText) fun _ => True where
  read_write _ := (inferInstance : Coded (ofList .text) (asList asText) _).read_write
    fun _ _ => trivial
  fits_of_read _ := trivial
  write_ne_null _ := nofun

/-! ## Maps -/

/-- A map of texts is written member by member, in the order of the keys, and read back. -/
theorem read_ofTextMap {read : Decoder String} [Coded .text read fun _ => True] (m : TextMap) :
    asMap read (ofTextMap m).written = some m := by
  have hms : object? (ofTextMap m).written =
      some (writtenMembers (m.entries.map fun e => (e.1, .text e.2))) := rfl
  have hread (value : String) : read (Json.text value).written = some value :=
    Coded.read_write trivial
  have hentries : ∀ l : List (String × String),
      (writtenMembers (l.map fun e => (e.1, .text e.2))).mapM
        (fun e => (read e.2).map (e.1, ·)) = some l := by
    intro l
    induction l with
    | nil => rfl
    | cons e r ih =>
      show List.mapM _ ((e.1, (Json.text e.2).written) :: writtenMembers _) = _
      rw [List.mapM_cons, ih, hread]
      rfl
  unfold asMap
  rw [hms, Option.bind_eq_bind, Option.bind_some, filter_isCut_writtenMembers, hentries]
  exact congrArg some (SortedMap.ofList_entries m)

instance : Coded ofTextMap asTextMap fun _ => True where
  read_write {m} _ := read_ofTextMap m
  fits_of_read _ := trivial
  write_ne_null _ := nofun

instance : Coded ofTextMap (asMap asAmount) fun _ => True where
  read_write {m} _ := read_ofTextMap m
  fits_of_read _ := trivial
  write_ne_null _ := nofun

/-! ## Members that are written -/

/-- The members of a written object. -/
def membersOf (fs : List (Option (String × Json))) : Written.Members :=
  writtenMembers (fs.filterMap id)

/-- The values that are written under a name. -/
def fieldsNamed (fs : List (Option (String × Json))) (name : String) : List Json :=
  ((fs.filterMap id).filter (·.1 = name)).map (·.2)

section

variable {fs : List (Option (String × Json))} {n name : String}

@[simp] theorem fieldsNamed_nil : fieldsNamed [] name = [] := rfl

@[simp] theorem fieldsNamed_none : fieldsNamed (none :: fs) name = fieldsNamed fs name := rfl

@[simp] theorem fieldsNamed_always {value : Json} :
    fieldsNamed (always n value :: fs) name =
      if n = name then value :: fieldsNamed fs name else fieldsNamed fs name := by
  unfold fieldsNamed always
  by_cases h : n = name <;> simp [h]

@[simp] theorem fieldsNamed_ifSome {α : Type} {write : α → Json} {value : Option α} :
    fieldsNamed (ifSome n write value :: fs) name =
      if n = name then (value.map write).toList ++ fieldsNamed fs name
      else fieldsNamed fs name := by
  unfold fieldsNamed ifSome
  cases value <;> by_cases h : n = name <;> simp [h]

theorem values_membersOf : values (membersOf fs) name = (fieldsNamed fs name).map written := by
  unfold values membersOf fieldsNamed
  rw [writtenMembers_eq_map, List.filter_map, List.map_map, List.map_map]
  rfl

/-- Reading a written object goes on with its members. -/
theorem object?_bind {β : Type} (f : Written.Members → Option β) :
    (object? (objectOf fs).written >>= f) = f (membersOf fs) := rfl

/-- Reading a written record goes on with its members, if it writes no name twice. -/
theorem shaped_bind {β : Type} {names : List String} {least : Nat}
    (f : Written.Members → Option β)
    (h : (names.all fun name => (fieldsNamed fs name).length ≤ 1) = true) :
    (shaped names least (objectOf fs).written >>= f) = f (membersOf fs) := by
  have hcount : ∀ name, (membersOf fs).countP (·.1 = name) = (fieldsNamed fs name).length := by
    intro name
    rw [List.countP_eq_length_filter, ← List.length_map (·.2)]
    show (values (membersOf fs) name).length = _
    rw [values_membersOf, List.length_map]
  have hunrepeated : isUnrepeated names (membersOf fs) = true := by
    unfold isUnrepeated
    simp only [hcount]
    exact h
  have hshaped : shaped names least (objectOf fs).written = some (membersOf fs) :=
    if_pos hunrepeated
  rw [hshaped]
  rfl

end

/-! ## Members that are read -/

/-- Reads a value where null means that there is none. -/
def orNull {α : Type} (read : Decoder α) : Decoder (Option α)
  | .null => some none
  | w => (read w).map some

theorem orNull_written {α : Type} (read : Decoder α) {j : Json} (h : j ≠ .null) :
    orNull read j.written = (read j.written).map some := by
  cases j with
  | null => exact absurd rfl h
  | _ => rfl

theorem optional_eq {α : Type} (read : Decoder α) (ms : Written.Members) (name : String) :
    optional read ms name = ((values ms name).mapM (orNull read)).map (·.getLast?.join) := by
  have hitem : ∀ w, orNull read w = (match w with
    | .null => some none
    | w => (read w).map some) := by
    intro w
    cases w <;> rfl
  rw [funext hitem]
  unfold optional
  exact Option.map_eq_bind.symm

/-- The last of the values that are read of a member. -/
def lastOf {α : Type} (read : Decoder α) (l : List Json) : Option (Option α) :=
  ((l.map written).mapM read).map (·.getLast?)

section

variable {α : Type} {write : α → Json} {read : Decoder α} {fits : α → Prop}
  {fs : List (Option (String × Json))} {name : String}

@[simp] theorem optional_membersOf :
    optional read (membersOf fs) name =
      (lastOf (orNull read) (fieldsNamed fs name)).map (·.join) := by
  rw [optional_eq, values_membersOf]
  unfold lastOf
  rw [Option.map_map]
  rfl

@[simp] theorem defaulted_membersOf {value : α} : defaulted read (membersOf fs) name value =
    (lastOf (orNull read) (fieldsNamed fs name)).map (·.join.getD value) := by
  unfold defaulted
  rw [optional_membersOf, Option.map_map]
  rfl

@[simp] theorem present_membersOf {value : α} : present read (membersOf fs) name value =
    (lastOf read (fieldsNamed fs name)).map (·.getD value) := by
  unfold present lastOf
  rw [values_membersOf, Option.map_map]
  rfl

@[simp] theorem required_membersOf : required read (membersOf fs) name =
    (lastOf read (fieldsNamed fs name)).join := by
  have hwhole : Written.breaksOff (membersOf fs) = false := (whole_writtenMembers _).breaksOff
  unfold required lastOf
  rw [values_membersOf, hwhole]
  cases ((fieldsNamed fs name).map written).mapM read with
  | none => rfl
  | some l =>
    rw [Option.bind_eq_bind, Option.bind_some, Option.map_some, Option.join_some]
    cases l.getLast? with
    | none => rfl
    | some a => rfl

@[simp] theorem lastOf_nil : lastOf read [] = some none := rfl

theorem lastOf_orNull_of_ne_null {j : Json} {a : α} (hnull : j ≠ .null)
    (hread : read j.written = some a) : lastOf (orNull read) [j] = some (some (some a)) := by
  unfold lastOf
  rw [List.map_singleton, List.mapM_cons, orNull_written read hnull, hread]
  rfl

section

variable [Coded write read fits]

theorem lastOf_singleton {a : α} (h : fits a) : lastOf read [write a] = some (some a) := by
  have hread : read (write a).written = some a := Coded.read_write h
  unfold lastOf
  rw [List.map_singleton, List.mapM_cons, hread]
  rfl

theorem lastOf_orNull_singleton {a : α} (h : fits a) :
    lastOf (orNull read) [write a] = some (some (some a)) :=
  lastOf_orNull_of_ne_null (Coded.write_ne_null read h) (Coded.read_write h)

theorem lastOf_orNull_toList {value : Option α} (h : ∀ a ∈ value, fits a) :
    (lastOf (orNull read) (value.map write).toList).map (·.join) = some value := by
  cases value with
  | none => rfl
  | some a =>
    rw [Option.map_some, Option.toList_some, lastOf_orNull_singleton (h a rfl)]
    rfl

end

/-- A value that is kept as it is: a proper one, and not null, which would be absence. -/
def Preserved (j : Json) : Prop := j ≠ .null ∧ j.Proper

theorem lastOf_orNull_asJson {value : Option Json} (h : ∀ j ∈ value, Preserved j) :
    (lastOf (orNull asJson) value.toList).map (·.join) = some value := by
  cases value with
  | none => rfl
  | some j =>
    obtain ⟨hnull, hproper⟩ := h j rfl
    have hread : asJson j.written = some j := value?_written j hproper
    rw [Option.toList_some, lastOf_orNull_of_ne_null hnull hread]
    rfl

/-! ## What is read fits -/

theorem whole_of_object? {j : Json} {ms : Written.Members} (h : object? j.written = some ms) :
    Whole ms := by
  cases j with
  | record given =>
    cases h
    exact whole_writtenMembers given
  | _ => cases h

/-- A record that is read has no part that is cut off, whether it was an object or a list. -/
theorem whole_of_shaped {names : List String} {least : Nat} {j : Json} {ms : Written.Members}
    (h : shaped names least j.written = some ms) : Whole ms := by
  cases j with
  | record given =>
    have h : (if isUnrepeated names (writtenMembers given) then some (writtenMembers given)
      else none) = some ms := h
    split at h
    · cases h
      exact whole_writtenMembers given
    · cases h
  | list items =>
    unfold shaped written at h
    dsimp only at h
    rw [filter_isCut_writtenItems, if_neg (Nat.lt_irrefl _)] at h
    split at h
    · cases h
    · split at h
      · cases h
      · cases h
        intro m hm
        have hitem : m.2 ∈ writtenItems items := (List.of_mem_zip hm).2
        rw [writtenItems_eq_map] at hitem
        obtain ⟨j, -, hj⟩ := List.mem_map.mp hitem
        exact ⟨j, hj.symm⟩
  | _ => cases h

theorem Whole.values {ms : Written.Members} (h : Whole ms) (name : String) :
    ∃ l : List Json, values ms name = l.map written := by
  have hall : ∀ w ∈ Json.values ms name, ∃ j : Json, j.written = w := by
    intro w hw
    obtain ⟨m, hm, rfl⟩ := List.mem_map.mp hw
    obtain ⟨j, hj⟩ := h m (List.mem_filter.mp hm).1
    exact ⟨j, hj.symm⟩
  generalize Json.values ms name = ws at hall
  induction ws with
  | nil => exact ⟨[], rfl⟩
  | cons w r ih =>
    obtain ⟨j, rfl⟩ := hall w List.mem_cons_self
    obtain ⟨l, rfl⟩ := ih fun w hw => hall w (List.mem_cons_of_mem _ hw)
    exact ⟨j :: l, rfl⟩

section

variable {ms : Written.Members}

/-- What is read of every value holds of all that is read of a member. -/
theorem Whole.forall_of_mapM {p : α → Prop} (hms : Whole ms)
    (hp : ∀ {j a}, read (written j) = some a → p a) {as : List α}
    (h : (Json.values ms name).mapM read = some as) : ∀ a ∈ as, p a := by
  obtain ⟨l, hl⟩ := hms.values name
  rw [hl] at h
  exact Json.forall_of_mapM hp h

/-- What is read of a value that is not null holds of a member that is read. -/
theorem forall_of_optional {p : α → Prop}
    (hp : ∀ {j a}, j ≠ .null → read (written j) = some a → p a) (hms : Whole ms) {o : Option α}
    (h : optional read ms name = some o) : ∀ a ∈ o, p a := by
  rw [optional_eq] at h
  obtain ⟨os, hos, rfl⟩ := Option.map_eq_some_iff.mp h
  have hall : ∀ o ∈ os, ∀ a ∈ o, p a := by
    refine hms.forall_of_mapM (fun {j o} hread a ha => ?_) hos
    -- Null is read as absence, of which nothing is asked.
    by_cases hj : j = .null
    · subst hj
      cases hread
      cases ha
    · rw [orNull_written read hj] at hread
      obtain ⟨a', ha', rfl⟩ := Option.map_eq_some_iff.mp hread
      cases ha
      exact hp hj ha'
  intro a ha
  exact hall (some a) (List.mem_of_getLast? (Option.join_eq_some_iff.mp ha)) a rfl

/-- Any value that is read is one that is kept. -/
theorem preserved_of_optional (hms : Whole ms) {o : Option Json}
    (h : optional asJson ms name = some o) : ∀ j ∈ o, Preserved j := by
  refine forall_of_optional (fun {j a} hj hread => ⟨?_, Written.proper_of_value? _ hread⟩) hms h
  rintro rfl
  cases j with
  | null => exact hj rfl
  | list l =>
    obtain ⟨_, -, hnull⟩ := Option.map_eq_some_iff.mp hread
    cases hnull
  | record given =>
    obtain ⟨_, -, hnull⟩ := Option.map_eq_some_iff.mp hread
    cases hnull
  | _ => cases hread

theorem fits_of_optional (write : α → Json) [Coded write read fits] (hms : Whole ms)
    {o : Option α} (h : optional read ms name = some o) : ∀ a ∈ o, fits a :=
  forall_of_optional (fun _ hread => Coded.fits_of_read write hread) hms h

theorem fits_of_defaulted (write : α → Json) [Coded write read fits] (hms : Whole ms)
    {value a : α} (hvalue : fits value) (h : defaulted read ms name value = some a) : fits a := by
  obtain ⟨o, ho, rfl⟩ := Option.map_eq_some_iff.mp h
  cases o with
  | none => exact hvalue
  | some a => exact fits_of_optional write hms ho a rfl

theorem fits_of_present (write : α → Json) [Coded write read fits] (hms : Whole ms)
    {value a : α} (hvalue : fits value) (h : present read ms name value = some a) : fits a := by
  obtain ⟨as, has, rfl⟩ := Option.map_eq_some_iff.mp h
  have hall := hms.forall_of_mapM (Coded.fits_of_read write) has
  cases hlast : as.getLast? with
  | none => exact hvalue
  | some a => exact hall a (List.mem_of_getLast? hlast)

theorem fits_of_required (write : α → Json) [Coded write read fits] (hms : Whole ms) {a : α}
    (h : required read ms name = some a) : fits a := by
  obtain ⟨as, has, h⟩ := Option.bind_eq_some_iff.mp h
  have hall := hms.forall_of_mapM (Coded.fits_of_read write) has
  cases hlast : as.getLast? with
  | none =>
    rw [hlast, hms.breaksOff] at h
    cases h
  | some a' =>
    rw [hlast] at h
    cases h
    exact hall a (List.mem_of_getLast? hlast)

end

end

end InnerLoop.Json
