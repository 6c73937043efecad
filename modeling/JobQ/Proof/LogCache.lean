import Mathlib.Data.List.Infix
import Mathlib.Tactic.Linarith
import JobQ.Model.LogCache

/-!
# Which lines of a log are kept

A buffer expires as a whole, a minute after its first line, and takes the later lines with it. Besides,
it is dropped when a hundred others have been used since and are young enough to stay.
-/

namespace JobQ.LogCache

open TtlCache

/-! ## Ends of lists -/

section

variable {α : Type} {l part : List α} {n : Nat}

theorem rtake_suffix (l : List α) (n : Nat) : l.rtake n <:+ l := List.drop_suffix _ l

theorem length_rtake (l : List α) (n : Nat) : (l.rtake n).length = min l.length n := by
  rw [List.rtake, List.length_drop]
  omega

theorem suffix_rtake (suffix : part <:+ l) (short : part.length ≤ n) : part <:+ l.rtake n := by
  apply List.suffix_of_suffix_length_le suffix (rtake_suffix l n)
  rw [length_rtake]
  exact Nat.le_min.mpr ⟨suffix.length_le, short⟩

theorem rtake_append_rtake (l : List α) (x : α) (n : Nat) :
    (l.rtake n ++ [x]).rtake n = (l ++ [x]).rtake n := by
  have last : l.rtake n ++ [x] <:+ l ++ [x] := by
    obtain ⟨front, whole⟩ := rtake_suffix l n
    exact ⟨front, by rw [← List.append_assoc, whole]⟩
  have length : ((l.rtake n ++ [x]).rtake n).length = ((l ++ [x]).rtake n).length := by
    simp only [length_rtake, List.length_append, List.length_singleton]
    omega
  have suffix := suffix_rtake ((rtake_suffix (l.rtake n ++ [x]) n).trans last) (n := n)
    (by rw [length_rtake]; exact Nat.min_le_right _ _)
  exact suffix.eq_of_length length

/-- What is filtered by a property that later items inherit is an end of the list. -/
theorem filter_suffix {p : α → Bool} (inherits : l.Pairwise fun a b => p a → p b) :
    l.filter p <:+ l := by
  induction l with
  | nil => exact List.suffix_rfl
  | cons a rest ih =>
      obtain ⟨first, others⟩ := List.pairwise_cons.mp inherits
      by_cases passes : p a = true
      · have all : ∀ b ∈ a :: rest, p b = true := by
          intro b member
          rcases List.mem_cons.mp member with rfl | later
          · exact passes
          · exact first b later passes
        exact ⟨[], by rw [List.filter_eq_self.mpr all, List.nil_append]⟩
      · rw [List.filter_cons_of_neg passes]
        exact (ih others).trans (List.suffix_cons a rest)

end

variable {Object : Type} {calls : List (Call Object)} {name : String} {now : Rat}
  {str : Object → Object} {percent : Object → List Object → Object}

/-! ## What is asked of the calls -/

def records (name : String) (calls : List (Call Object)) : List (Rat × LogRecord Object) :=
  calls.filterMap fun
    | .emit now record =>
      if "task.".toList <+: record.name.toList ∧ record.name = name then some (now, record) else none
    | .getLogCache _ _ => none

/-- The last 100 records of a logger, as far as they are younger than the time to live. -/
def recent (name : String) (calls : List (Call Object)) (now : Rat) : List (Rat × LogRecord Object) :=
  ((records name calls).rtake maxlen).filter fun r => now < r.1 + ttl

def Ordered (calls : List (Call Object)) : Prop :=
  calls.Pairwise fun first second => first.now ≤ second.now

/-- What is returned ends with the recent messages of the task. -/
def Kept (str : Object → Object) (percent : Object → List Object → Object) (task : String)
    (calls : List (Call Object)) (now : Rat) : Prop :=
  (recent ("task." ++ task) calls now).map (fun r => r.2.getMessage str percent) <:+
    (getLogCache (cachesAfter calls) now task).1

/-- How many records of a logger have come since its buffer was opened, for the buffers that have not
been dropped. -/
abbrev Openings : Type := Cache String Nat Rat

def follow (openings : Openings) : Call Object → Openings
  | .emit now record =>
    if "task.".toList <+: record.name.toList then
      let openings :=
        if contains openings record.name now then openings
        else setItem maxsize openings record.name 0 now (now + ttl)
      touch openings record.name (· + 1)
    else openings
  | .getLogCache now taskId =>
    if contains openings ("task." ++ taskId) now then touch openings ("task." ++ taskId) id
    else openings

def openings (calls : List (Call Object)) : Openings := calls.foldl follow ∅

/-- The task has a buffer that has not expired, and the recent records have come since it was opened. -/
def Unbroken (task : String) (calls : List (Call Object)) (now : Rat) : Prop :=
  ∃ count expires, (openings calls).lookup ("task." ++ task) = some (count, expires) ∧
    now < expires ∧ (recent ("task." ++ task) calls now).length ≤ count

/-! ## Buffers -/

def buffered (calls : List (Call Object)) (name : String) (count : Nat) : List Object :=
  (((records name calls).rtake count).rtake maxlen).map fun r => r.2.msg

theorem records_snoc (name : String) (calls : List (Call Object)) (call : Call Object) :
    records name (calls ++ [call]) = records name calls ++ records name [call] :=
  List.filterMap_append

theorem records_emit (name : String) (now : Rat) (record : LogRecord Object) :
    records name [.emit now record] =
      if "task.".toList <+: record.name.toList ∧ record.name = name then [(now, record)] else [] := by
  by_cases own : "task.".toList <+: record.name.toList ∧ record.name = name
  · rw [if_pos own]
    exact List.filterMap_cons_some (if_pos own)
  · rw [if_neg own]
    exact List.filterMap_cons_none (if_neg own)

theorem map_rtake {α β : Type} (f : α → β) (l : List α) (n : Nat) :
    (l.rtake n).map f = (l.map f).rtake n := by
  rw [List.rtake, List.rtake, List.map_drop, List.length_map]

theorem buffered_own (now : Rat) {record : LogRecord Object}
    (ofTask : "task.".toList <+: record.name.toList) (count : Nat) :
    buffered (calls ++ [.emit now record]) record.name (count + 1) =
      append (buffered calls record.name count) record.msg := by
  have own : records record.name [.emit now record] = [(now, record)] :=
    (records_emit record.name now record).trans (if_pos ⟨ofTask, rfl⟩)
  rw [buffered, records_snoc, own, List.rtake_concat_succ, ← rtake_append_rtake, map_rtake,
    List.map_append]
  rfl

theorem buffered_other {call : Call Object} (other : records name [call] = []) (count : Nat) :
    buffered (calls ++ [call]) name count = buffered calls name count := by
  rw [buffered, records_snoc, other, List.append_nil, buffered]

theorem buffered_none (calls : List (Call Object)) (name : String) : buffered calls name 0 = [] := by
  rw [buffered, List.rtake_zero]
  rfl

theorem buffered_quiet {call : Call Object} (quiet : ∀ name, records name [call] = []) :
    buffered (calls ++ [call]) = buffered calls :=
  funext fun name => funext (buffered_other (quiet name))

theorem emit_mapValues (openings : Openings) (now : Rat) (record : LogRecord Object) :
    emit (mapValues (buffered calls) openings) now record =
      mapValues (buffered (calls ++ [.emit now record])) (follow openings (.emit now record)) := by
  rw [emit, follow]
  split
  · rename_i ofTask
    have others (name : String) (count : Nat) (other : name ≠ record.name) :
        buffered (calls ++ [.emit now record]) name count = buffered calls name count :=
      buffered_other ((records_emit name now record).trans (if_neg fun own => other own.2.symm)) count
    have found : (if contains (mapValues (buffered calls) openings) record.name now then
          mapValues (buffered calls) openings
        else setItem maxsize (mapValues (buffered calls) openings) record.name [] now (now + ttl)) =
        mapValues (buffered calls) (if contains openings record.name now then openings
          else setItem maxsize openings record.name 0 now (now + ttl)) := by
      rw [contains_mapValues, apply_ite (mapValues (buffered calls)),
        ← setItem_mapValues (g := buffered calls) (h := buffered calls) fun _ _ _ => rfl,
        buffered_none]
    dsimp only
    rw [found]
    exact touch_mapValues others fun entry _ => buffered_own now ofTask entry.1
  · rename_i other
    rw [buffered_quiet fun name => (records_emit name now record).trans (if_neg fun own => other own.1)]

/-- The handler has the buffers that are followed, each with its last records. -/
theorem cachesAfter_eq (calls : List (Call Object)) :
    cachesAfter calls = mapValues (buffered calls) (openings calls) := by
  induction calls using List.reverseRecOn with
  | nil => rfl
  | append_singleton calls call ih =>
      have caches : cachesAfter (calls ++ [call]) = step (cachesAfter calls) call := List.foldl_concat ..
      have opened : openings (calls ++ [call]) = follow (openings calls) call := List.foldl_concat ..
      rw [caches, opened, ih]
      cases call with
      | emit now record => exact emit_mapValues (openings calls) now record
      | getLogCache now task =>
          rw [buffered_quiet fun name => rfl, step, getLogCache, follow, contains_mapValues]
          split
          · exact touch_mapValues (fun _ _ _ => rfl) fun _ _ => rfl
          · rfl

/-! ## What is returned -/

theorem recent_suffix (ordered : Ordered calls) (name : String) (now : Rat) :
    recent name calls now <:+ records name calls := by
  have order : (records name calls).Pairwise fun first second => first.1 ≤ second.1 := by
    apply List.Pairwise.filterMap _ _ ordered
    intro first second le m given n also
    cases first with
    | emit time record =>
        cases second with
        | emit next other =>
            dsimp only at given also
            split at given <;> cases given
            split at also <;> cases also
            exact le
        | getLogCache next task => cases also
    | getLogCache time task => cases given
  have later : ((records name calls).rtake maxlen).Pairwise fun first second => first.1 ≤ second.1 :=
    order.sublist (rtake_suffix _ _).sublist
  refine (filter_suffix (later.imp ?_)).trans (rtake_suffix _ _)
  intro first second le young
  simp only [decide_eq_true_eq] at young ⊢
  linarith

theorem recent_short (name : String) (calls : List (Call Object)) (now : Rat) :
    (recent name calls now).length ≤ maxlen := by
  apply (List.length_filter_le _ _).trans
  rw [length_rtake]
  exact Nat.min_le_right _ _

/-- A buffer ends with the recent messages if it has got the recent records, and each of their messages
is the template. -/
theorem buffered_ends_iff (ordered : Ordered calls) (name : String) (now : Rat) (count : Nat) :
    (recent name calls now).map (fun r => r.2.getMessage str percent) <:+ buffered calls name count ↔
      (∀ r ∈ recent name calls now, r.2.getMessage str percent = r.2.msg) ∧
        (recent name calls now).length ≤ count := by
  have templates (few : (recent name calls now).length ≤ count) :
      (recent name calls now).map (fun r => r.2.msg) <:+ buffered calls name count :=
    (suffix_rtake (suffix_rtake (recent_suffix ordered name now) few)
      (recent_short name calls now)).map _
  constructor
  · intro ends
    have few : (recent name calls now).length ≤ count := by
      have shorter := ends.length_le
      simp only [buffered, List.length_map, length_rtake] at shorter
      omega
    have same := (List.suffix_of_suffix_length_le ends (templates few) (by simp)).eq_of_length (by simp)
    exact ⟨fun r member => List.map_inj_left.mp same r member, few⟩
  · rintro ⟨same, few⟩
    rw [List.map_congr_left same]
    exact templates few

theorem kept_iff (str : Object → Object) (percent : Object → List Object → Object)
    (calls : List (Call Object)) (ordered : Ordered calls) (task : String) (now : Rat) :
    Kept str percent task calls now ↔
      (∀ r ∈ recent ("task." ++ task) calls now, r.2.getMessage str percent = r.2.msg) ∧
        (recent ("task." ++ task) calls now = [] ∨ Unbroken task calls now) := by
  rw [Kept, getLogCache, cachesAfter_eq, contains_mapValues, lookup_mapValues]
  by_cases present : contains (openings calls) ("task." ++ task) now = true
  · obtain ⟨⟨count, expires⟩, stored, alive⟩ := contains_iff.mp present
    rw [if_pos present, stored]
    refine (buffered_ends_iff ordered ("task." ++ task) now count).trans (and_congr_right fun _ => ?_)
    constructor
    · intro few
      exact .inr ⟨count, expires, stored, alive, few⟩
    · rintro (none | ⟨_, _, again, -, few⟩)
      · rw [none]
        exact Nat.zero_le count
      · cases stored.symm.trans again
        exact few
  · rw [if_neg present, List.suffix_nil, List.map_eq_nil_iff]
    constructor
    · intro none
      exact ⟨by simp [none], .inl none⟩
    · rintro ⟨-, none | ⟨count, expires, stored, alive, -⟩⟩
      · exact none
      · exact absurd (contains_iff.mpr ⟨_, stored, alive⟩) present

/-! ## A failure after a minute -/

def secondLine : List (Call String) :=
  [.emit 0 { name := "task.t1", msg := "Starting" }, .emit 59 { name := "task.t1", msg := "Out of memory" }]

def twoTasks : List (Call String) :=
  [.emit 0 { name := "task.t1", msg := "Starting" }, .emit 5 { name := "task.t2", msg := "Starting" },
    .getLogCache 20 "t2", .emit 61 { name := "task.t1", msg := "Loading" },
    .emit 62 { name := "jobq", msg := "heartbeat" }, .emit 70 { name := "task.t1", msg := "Failed" }]

theorem kept_twoTasks : Kept id (fun text _ => text) "t1" twoTasks 71 :=
  (kept_iff id (fun text _ => text) twoTasks (by simp only [Ordered]; decide) "t1" 71).mpr
    ⟨by decide +kernel, .inr ⟨2, 121, by decide +kernel, by decide +kernel, by decide +kernel⟩⟩

/-- The line that was logged two seconds ago is lost. -/
theorem secondLine_lost : Ordered secondLine ∧
    (recent "task.t1" secondLine 61).map (fun r => r.2.msg) = ["Out of memory"] ∧
      (getLogCache (cachesAfter secondLine) 61 "t1").1 = [] ∧
        ¬ Kept id (fun text _ => text) "t1" secondLine 61 := by
  have logged : (recent "task.t1" secondLine 61).map
      (fun r => r.2.getMessage id fun text _ => text) = ["Out of memory"] := by decide +kernel
  have returned : (getLogCache (cachesAfter secondLine) 61 "t1").1 = [] := by decide +kernel
  refine ⟨by simp only [Ordered]; decide, by decide +kernel, returned, fun kept => ?_⟩
  have none : recent "task.t1" secondLine 61 = [] := by
    rwa [Kept, returned, List.suffix_nil, List.map_eq_nil_iff] at kept
  rw [none] at logged
  cases logged

end JobQ.LogCache
