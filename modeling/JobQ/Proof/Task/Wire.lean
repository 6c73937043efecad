import JobQ.Library.Machine
import JobQ.Proof.Task.Id

/-!
# A task on its way through the queue

A task is written and read again at every delivery, and its retry count is replaced in between. The
id of the first push, the arguments and the reply flag arrive whatever the number of hops. What JSON
does not leave as it is are the halves of surrogate pairs, which it joins, and the integers that are
too long to be written.
-/

namespace JobQ
open JsonText

namespace AnyTask

variable {t u : AnyTask}

/-- The arguments can be written, and every other field comes back as it is. -/
structure Written (t : AnyTask) : Prop where
  kwargs : writable t.kwargs = true
  numRetries : WellFormed t.numRetries
  replyRequested : WellFormed t.replyRequested
  id : WellFormed t.id

structure Sound (t : AnyTask) : Prop where
  kwargs : WellFormed t.kwargs
  numRetries : WellFormed t.numRetries
  replyRequested : WellFormed t.replyRequested
  id : WellFormed t.id

theorem Sound.written (sound : t.Sound) : t.Written :=
  ⟨writable_wellFormed _ sound.kwargs, sound.numRetries, sound.replyRequested, sound.id⟩

def delivered (t : AnyTask) (id : Json) : AnyTask := { t with id, error := none }

def wire (t : AnyTask) (id : Json) : Members := JsonText.setItem t.members "id" id

/-! ## Writing -/

theorem Written.writable (written : t.Written) : t.Writable :=
  ⟨written.kwargs, writable_wellFormed _ written.numRetries, writable_wellFormed _ written.replyRequested⟩

theorem Written.members (written : t.Written) : WellFormed (.obj t.members) := by
  have version : Fits 1 := fits_of_lt (by decide)
  simp [AnyTask.members, WellFormed, MembersWellFormed, version, written.replyRequested,
    written.numRetries]

theorem Written._id (written : t.Written) : ∃ id, t._id = some id ∧ id.truthy = true ∧ WellFormed id := by
  unfold AnyTask._id
  cases given : t.id.truthy with
  | true => exact ⟨t.id, by simp, given, written.id⟩
  | false =>
      rw [hashed_eq, if_pos written.writable, Option.map_some]
      have nonempty : digest (text (.obj t.members)) ≠ "" := Md5.hexdigest_ne_empty _
      refine ⟨_, rfl, ?_, Str.joined_ofString⟩
      simpa [Json.truthy, Str.ofString, String.toList_eq_nil_iff] using nonempty

theorem Written.wire (written : t.Written) {id : Json} (wf : WellFormed id) :
    WellFormed (.obj (t.wire id)) :=
  ⟨setItem_nodup _ _ written.members.1,
    setItem_membersWellFormed written.members.2 Str.joined_ofString wf⟩

theorem Written.serialize (written : t.Written) {id : Json} (named : t._id = some id)
    (wf : WellFormed id) : t.serialize = some (text (.obj (t.wire id))) := by
  simp only [AnyTask.serialize, dictWithoutId_eq, if_pos written.kwargs, named, Option.bind_eq_bind,
    Option.bind_some]
  exact dumps_wellFormed (written.wire wf)

/-! ## Reading -/

theorem equalsInt_unique {v : Json} {m n : Int} (left : v.equalsInt m = true)
    (right : v.equalsInt n = true) : m = n := by
  cases v with
  | int k =>
      simp only [Json.equalsInt, decide_eq_true_eq] at left right
      exact left.symm.trans right
  | bool b =>
      simp only [Json.equalsInt, decide_eq_true_eq] at left right
      exact left.symm.trans right
  | float x =>
      cases x with
      | finite literal =>
          simp only [Json.equalsInt, decide_eq_true_eq] at left right
          exact_mod_cast left.symm.trans right
      | _ => cases left
  | _ => cases left

section

variable {string text : Str} {data : Members} {version id kwargs numRetries replyRequested : Json}
  (read : loads string = some (.obj data)) (written : getItem data "version" = some version)
include read written

theorem deserialize_unsupported (notOne : version.equalsInt 1 = false)
    (notZero : version.equalsInt 0 = false) :
    deserialize string = .error (.unsupportedVersion version) := by
  simp [deserialize, jsonLoads, read, subscript, written, notOne, notZero, bind, Except.bind]

variable (atId : getItem data "id" = some id) (atKwargs : getItem data "kwargs" = some (.str text))
  (loaded : loads text = some kwargs) (atRetries : getItem data "num_retries" = some numRetries)
include atId atKwargs loaded atRetries

theorem deserialize_one (one : version.equalsInt 1 = true)
    (atReply : getItem data "reply_requested" = some replyRequested) :
    deserialize string = .ok { id, kwargs, numRetries, replyRequested } := by
  simp [deserialize, jsonLoads, read, subscript, written, one, atId, atKwargs, loaded, atRetries,
    atReply, bind, Except.bind, pure, Except.pure]

theorem deserialize_zero (zero : version.equalsInt 0 = true) :
    deserialize string = .ok { id, kwargs, numRetries, replyRequested := .bool false } := by
  have notOne : version.equalsInt 1 = false := by
    rw [Bool.eq_false_iff]
    intro one
    have absurd := equalsInt_unique zero one
    contradiction
  simp [deserialize, jsonLoads, read, subscript, written, notOne, zero, atId, atKwargs, loaded,
    atRetries, bind, Except.bind, pure, Except.pure]

end

theorem Written.deserialize (written : t.Written) {id : Json} (wf : WellFormed id) :
    deserialize (text (.obj (t.wire id))) =
      .ok { t.delivered id with kwargs := readBack dictOf t.kwargs } := by
  have one : (Json.int 1).equalsInt 1 = true := by simp [Json.equalsInt]
  refine deserialize_one (loads_text (written.wire wf)) ?_ ?_ ?_ (loadsWith_text dictOf written.kwargs) ?_
    one ?_
  all_goals simp [AnyTask.wire, JsonText.setItem, AnyTask.members, getItem, delivered]

theorem Sound.deserialize (sound : t.Sound) {id : Json} (wf : WellFormed id) :
    deserialize (text (.obj (t.wire id))) = .ok (t.delivered id) := by
  rw [sound.written.deserialize wf, readBack_wellFormed _ sound.kwargs]
  rfl

/-! ## Hops -/

inductive Form where
  | task (t : AnyTask)
  | text (s : String)

inductive Hop where
  | serialize
  | deserialize
  | numRetries (n : Int)

def hop : Form → Hop → Option Form
  | .task t, .serialize => t.serialize.map .text
  | .text s, .deserialize =>
    match AnyTask.deserialize s with
    | .ok t => some (.task t)
    | .error _ => none
  | .task t, .numRetries n => some (.task { t with numRetries := .int n })
  | _, _ => none

def hops : Mealy.Machine Form Hop Empty := ⟨fun form a => (hop form a).map fun next => (next, [])⟩

/-- The retry count may have become one that cannot be written. -/
structure Continues (t : AnyTask) (id : Json) (u : AnyTask) : Prop where
  id : u.id = id
  kwargs : u.kwargs = t.kwargs
  replyRequested : u.replyRequested = t.replyRequested
  numRetries : writable u.numRetries = true → WellFormed u.numRetries

def Carries (t : AnyTask) (id : Json) : Form → Prop
  | .task u => Continues t id u
  | .text s => ∃ u, AnyTask.deserialize s = .ok u ∧ Continues t id u

theorem writable_of_serialize {s : String} (written : u.serialize = some s) :
    writable u.numRetries = true := by
  simp only [AnyTask.serialize, AnyTask.dictWithoutId, Option.bind_eq_bind, Option.bind_eq_some_iff,
    Option.pure_def, Option.some.injEq, dumps, Option.ite_none_right_eq_some] at written
  obtain ⟨-, ⟨kwargs, -, rfl⟩, id, -, all, -⟩ := written
  have fields : writable (.int 1) = true ∧ writable u.replyRequested = true ∧
      writable u.numRetries = true ∧ writable id = true := by
    simpa [JsonText.setItem, writable, membersWritable] using all
  exact fields.2.2.1

section

variable {id : Json} (sound : t.Sound) (truthy : id.truthy = true)
  (wf : WellFormed id)
include sound wf

theorem Continues.whole (continues : Continues t id u) (writes : writable u.numRetries = true) :
    u.Sound :=
  ⟨continues.kwargs ▸ sound.kwargs, continues.numRetries writes,
    continues.replyRequested ▸ sound.replyRequested, continues.id ▸ wf⟩

include truthy

theorem Continues.carries {s : String} (continues : Continues t id u) (written : u.serialize = some s) :
    Carries t id (.text s) := by
  have whole := continues.whole sound wf (writable_of_serialize written)
  have same : u._id = some id := by rw [AnyTask._id, continues.id, if_pos truthy]
  rw [whole.written.serialize same wf, Option.some.injEq] at written
  subst s
  exact ⟨_, whole.deserialize wf, rfl, continues.kwargs, continues.replyRequested,
    fun _ => whole.numRetries⟩

theorem Carries.hop {form next : Form} {a : Hop} (carries : Carries t id form)
    (hopped : hop form a = some next) : Carries t id next := by
  cases form with
  | task u =>
      cases a with
      | serialize =>
          obtain ⟨s, written, rfl⟩ := Option.map_eq_some_iff.mp hopped
          exact Continues.carries sound truthy wf carries written
      | deserialize => cases hopped
      | numRetries n =>
          cases hopped
          exact ⟨carries.id, carries.kwargs, carries.replyRequested, of_decide_eq_true⟩
  | text s =>
      cases a with
      | serialize => cases hopped
      | deserialize =>
          obtain ⟨u, read, continues⟩ := carries
          simp only [AnyTask.hop, read] at hopped
          cases hopped
          exact continues
      | numRetries n => cases hopped

theorem run_carries {log : List Empty} {s : String} {form : Form} (first : Carries t id (.text s))
    (run : Mealy.Run hops Mealy.always (.text s, []) log form) : Carries t id form := by
  apply run.state_invariant first
  intro form a next _ carries _ action
  simp only [hops, Option.map_eq_some_iff, Prod.mk.injEq] at action
  obtain ⟨_, hopped, rfl, -⟩ := action
  exact carries.hop sound truthy wf hopped

end

/-! ## The whole way -/

/-- What becomes of a task `t` that is written as `s`, under the id `id`. -/
structure SurvivesWire (t : AnyTask) (id : Json) (s : String) : Prop where
  written : t.serialize = some s
  roundTrip : deserialize s = .ok (t.delivered id)
  again : (t.delivered id).serialize = some s
  hops : ∀ log form, Mealy.Run hops Mealy.always (.text s, []) log form → Carries t id form
  versionZero : ∀ string data version kwargs, loads string = some (.obj data) →
    getItem data "version" = some version → version.equalsInt 0 = true →
    getItem data "id" = some id → dumps t.kwargs = some kwargs →
    getItem data "kwargs" = some (.str kwargs) → getItem data "num_retries" = some t.numRetries →
    deserialize string = .ok { t.delivered id with replyRequested := .bool false }
  otherVersions : ∀ string data version, loads string = some (.obj data) →
    getItem data "version" = some version → version.equalsInt 1 = false →
    version.equalsInt 0 = false → deserialize string = .error (.unsupportedVersion version)

theorem task_survives_wire (t : AnyTask) (sound : t.Sound) :
    ∃ id s, t._id = some id ∧ SurvivesWire t id s := by
  obtain ⟨id, named, truthy, wf⟩ := sound.written._id
  have delivered : (t.delivered id).Sound :=
    ⟨sound.kwargs, sound.numRetries, sound.replyRequested, wf⟩
  have again : (t.delivered id)._id = some id := if_pos truthy
  have roundTrip := sound.deserialize wf
  have first : Carries t id (.text (text (.obj (t.wire id)))) :=
    ⟨_, roundTrip, rfl, rfl, rfl, fun _ => sound.numRetries⟩
  refine ⟨id, _, named, sound.written.serialize named wf, roundTrip,
    delivered.written.serialize again wf,
    fun _ _ run => run_carries sound truthy wf first run, ?_,
    fun _ _ _ read written notOne notZero => deserialize_unsupported read written notOne notZero⟩
  intro string data version kwargs read written zero atId dumped atKwargs atRetries
  rw [dumps_wellFormed sound.kwargs, Option.some.injEq] at dumped
  subst kwargs
  exact deserialize_zero read written atId atKwargs (loads_text sound.kwargs) atRetries zero

/-- Quotes, and two surrogates that are no pair. -/
def halves : AnyTask :=
  nameless [("cmd", .str "echo \"a\""), ("halves", .str ⟨[.low (Point.half 0x200), .high (Point.half 0x3d)]⟩)]

theorem halves_survive_wire : ∃ id s, halves._id = some id ∧ SurvivesWire halves id s :=
  task_survives_wire halves ⟨by decide, fits_of_lt (by decide), trivial, trivial⟩

/-- The pair comes back as one character, and the integer is not written. -/
theorem faces_and_hugeInt_changed :
    (¬ ∃ id s, (nameless [("cmd", .str splitFace)])._id = some id ∧
      SurvivesWire (nameless [("cmd", .str splitFace)]) id s) ∧
    ¬ ∃ id s, (nameless [("n", .int hugeInt)])._id = some id ∧
      SurvivesWire (nameless [("n", .int hugeInt)]) id s := by
  constructor
  · rintro ⟨id, s, named, survives⟩
    have written : (nameless [("cmd", .str splitFace)]).Written :=
      ⟨by decide, fits_of_lt (by decide), trivial, trivial⟩
    obtain ⟨id', named', -, wf⟩ := written._id
    rw [named, Option.some.injEq] at named'
    subst id'
    have text := survives.written
    rw [written.serialize named wf, Option.some.injEq] at text
    subst s
    have read := survives.roundTrip
    rw [written.deserialize wf, Except.ok.injEq] at read
    have kwargs := congrArg AnyTask.kwargs read
    simp [nameless, delivered, readBack, membersReadBack, dictOf, JsonText.setItem, splitFace,
      Str.joined, Str.joinPoints] at kwargs
  · rintro ⟨id, s, named, -⟩
    have unwritable : ¬ (nameless [("n", .int hugeInt)]).Writable := by
      simp [Writable, nameless, writable, membersWritable, not_fits_hugeInt]
    rw [_id_of_anonymous rfl, hashed_eq, if_neg unwritable] at named
    cases named

end AnyTask

/-! ## Tasks with the declared types -/

namespace Task

theorem toAny_sound (t : Task) : t.toAny.Sound where
  kwargs := t.kwargs.wellFormed
  numRetries := t.retries.property
  replyRequested := trivial
  id := by cases t with | mk kwargs retries error replyRequested id => cases id <;> simp [toAny, WellFormed]

theorem toAny_id (t : Task) : t.toAny._id = some (.str t._id) := by
  have hashed : t.toAny.hashed = some t.hashed :=
    AnyTask.hashed_eq.trans (if_pos t.toAny_sound.written.writable)
  have truthy (id : String) : (Json.str id).truthy = true ↔ id ≠ "" := by
    simp [Json.truthy, Str.ofString, String.toList_eq_nil_iff]
  unfold AnyTask._id _id
  rw [hashed]
  cases given : t.id with
  | none => simp [toAny, given, Json.truthy]
  | some id =>
      by_cases empty : id = ""
      · simp [toAny, given, truthy, empty]
      · simp [toAny, given, truthy, empty]

theorem toAny_serialize (t : Task) : t.toAny.serialize = some t.serialize :=
  t.toAny_sound.written.serialize t.toAny_id Str.ofString_joined

theorem deserialize_serialize (t : Task) : deserialize t.serialize = .ok t.delivered := by
  have read : AnyTask.deserialize t.serialize = .ok t.delivered.toAny :=
    t.toAny_sound.deserialize Str.ofString_joined
  simp [deserialize, read, ofAny_toAny, bind, Except.bind, pure, Except.pure]

end Task

end JobQ
