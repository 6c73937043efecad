import JobQ.Library.Fallible
import JobQ.Model.ScheduledEvents

/-!
# Which answers stop the watch

The decoding of a document is outside the `try` that guards the request. A document without a list of
events, or an event with other fields than the dataclass, ends the polling task with an exception, and
leaving the handler's context raises it.
-/

namespace JobQ.ScheduledEvents

open JsonText Fallible

/-- The polling task goes on after each of the inputs, and leaving the context raises nothing. -/
structure Watches (h : Handler) (inputs : List Input) : Prop where
  polls : ∀ before after, inputs = before ++ after → (run h before).poller = .polling
  leaves : leave (run h inputs) = none

/-- An object with the fields of the dataclass and no others. -/
def IsScheduledEvent (event : Json) : Prop :=
  ∃ members, event = .obj members ∧ ∀ name, name ∈ members.map Prod.fst ↔ name ∈ fields

/-- An object whose `Events` are a list of events. An empty text or object counts as an empty list. -/
def IsListing (data : Json) : Prop :=
  ∃ members events, data = .obj members ∧ getItem members "Events" = some events ∧
    (events = .str "" ∨ events = .obj [] ∨
      ∃ items, events = .arr items ∧ ∀ event ∈ items, IsScheduledEvent event)

/-! ## What can be decoded -/

theorem argument_ok_iff {members : Members} {name : Str} :
    (∃ value, argument members name = .ok value) ↔ name ∈ members.map Prod.fst := by
  have found : name ∈ members.map Prod.fst ↔ (getItem members name).isSome := by
    simp [getItem, List.find?_isSome]
  rw [found, argument]
  cases getItem members name with
  | none => simp
  | some value => simp

theorem scheduledEvent_obj_ok_iff {members : Members} :
    (∃ event, scheduledEvent (.obj members) = .ok event) ↔
      ∀ name, name ∈ members.map Prod.fst ↔ name ∈ fields := by
  rw [scheduledEvent]
  constructor
  · rintro ⟨event, decoded⟩ name
    split at decoded
    · rename_i known
      constructor
      · intro member
        obtain ⟨m, there, rfl⟩ := List.mem_map.mp member
        simpa using List.all_eq_true.mp known m there
      · intro member
        apply argument_ok_iff.mp
        simp only [bind_eq_ok] at decoded
        obtain ⟨_, id, _, status, _, type, _, resourceType, _, resources, _, notBefore,
          _, description, _, source, _, duration, _⟩ := decoded
        simp only [fields, List.mem_cons, List.not_mem_nil, or_false] at member
        rcases member with rfl | rfl | rfl | rfl | rfl | rfl | rfl | rfl | rfl
        exacts [⟨_, id⟩, ⟨_, status⟩, ⟨_, type⟩, ⟨_, resourceType⟩, ⟨_, resources⟩, ⟨_, notBefore⟩,
          ⟨_, description⟩, ⟨_, source⟩, ⟨_, duration⟩]
    · cases decoded
  · intro same
    have known : (members.all fun m => m.1 ∈ fields) = true := by
      rw [List.all_eq_true]
      intro m there
      exact decide_eq_true ((same m.1).mp (List.mem_map_of_mem there))
    have given {name : Str} (member : name ∈ fields) : ∃ value, argument members name = .ok value :=
      argument_ok_iff.mpr ((same name).mpr member)
    rw [if_pos known]
    -- one of the nine fields after the other
    iterate 9 refine bind_ok (given (by decide)) fun _ => ?_
    exact ⟨_, rfl⟩

theorem scheduledEvent_ok_iff {event : Json} :
    (∃ e, scheduledEvent event = .ok e) ↔ IsScheduledEvent event := by
  cases event with
  | obj members =>
      rw [scheduledEvent_obj_ok_iff]
      exact ⟨fun same => ⟨members, rfl, same⟩, fun ⟨_, rfl, same⟩ => same⟩
  | _ => exact ⟨fun ⟨_, fails⟩ => (by cases fails), fun ⟨_, fails, _⟩ => (by cases fails)⟩

/-- The key of an object and the letter of a text are not mappings. -/
theorem forall_str_iff {γ : Type*} {items : List γ} {text : γ → Str} :
    (∀ event ∈ items.map fun c => Json.str (text c), IsScheduledEvent event) ↔ items = [] := by
  cases items with
  | nil => simp
  | cons c rest => simp [IsScheduledEvent]

theorem iterate_ok_iff {events : Json} :
    (∃ items, iterate events = .ok items ∧ ∀ event ∈ items, IsScheduledEvent event) ↔
      events = .str "" ∨ events = .obj [] ∨
        ∃ items, events = .arr items ∧ ∀ event ∈ items, IsScheduledEvent event := by
  cases events with
  | arr items => simp [iterate]
  | obj members =>
      simp only [iterate, Except.ok.injEq, exists_eq_left', forall_str_iff]
      simp
  | str s =>
      simp only [iterate, Except.ok.injEq, exists_eq_left', forall_str_iff]
      simp [Str.eq_empty_iff]
  | null => simp [iterate]
  | bool b => simp [iterate]
  | int n => simp [iterate]
  | float x => simp [iterate]

theorem subscript_ok_iff {data events : Json} {key : String} : subscript data key = .ok events ↔
    ∃ members, data = .obj members ∧ getItem members key = some events := by
  cases data with
  | obj members => cases found : getItem members key <;> simp [subscript, found]
  | _ => simp [subscript]

theorem getScheduledEvents_ok_iff {data : Json} :
    (∃ events, getScheduledEvents (.document data) = .ok events) ↔ IsListing data := by
  constructor
  · rintro ⟨results, decoded⟩
    obtain ⟨events, found, decoded⟩ := bind_eq_ok.mp decoded
    obtain ⟨items, iterated, decoded⟩ := bind_eq_ok.mp decoded
    obtain ⟨members, object, listed⟩ := subscript_ok_iff.mp found
    refine ⟨members, events, object, listed, iterate_ok_iff.mp ⟨items, iterated, ?_⟩⟩
    intro event member
    exact scheduledEvent_ok_iff.mp (mapM_ok_iff.mp ⟨results, decoded⟩ event member)
  · rintro ⟨members, events, object, listed, shape⟩
    obtain ⟨items, iterated, each⟩ := iterate_ok_iff.mpr shape
    obtain ⟨results, decoded⟩ := mapM_ok_iff.mpr fun event member =>
      scheduledEvent_ok_iff.mpr (each event member)
    refine ⟨results, bind_eq_ok.mpr ⟨events, subscript_ok_iff.mpr ⟨members, object, listed⟩, ?_⟩⟩
    exact bind_eq_ok.mpr ⟨items, iterated, decoded⟩

/-! ## The run of the watch -/

def Input.Decodable : Input → Prop
  | .answers (.document data) => IsListing data
  | _ => True

theorem callback_poller (h : Handler) (events : List ScheduledEvent) :
    (callback h events).poller = h.poller := by
  rw [callback]
  repeat' split
  all_goals rfl

theorem step_polling_iff {h : Handler} {input : Input} : (step h input).poller = .polling ↔
    h.poller = .polling ∧ input.Decodable := by
  cases input with
  | sets => exact (and_iff_left trivial).symm
  | clears => exact (and_iff_left trivial).symm
  | answers answer =>
      rw [step]
      split
      · rename_i exc failed
        simp [failed]
      · rename_i polling
        rw [polling]
        cases answer with
        | fails =>
            exact iff_of_true ((callback_poller h []).trans polling) ⟨rfl, trivial⟩
        | document data =>
            have decodable : Input.Decodable (.answers (.document data)) ↔ IsListing data := Iff.rfl
            rw [decodable, ← getScheduledEvents_ok_iff]
            cases getScheduledEvents (.document data) with
            | ok events => simp [callback_poller, polling]
            | error exc => simp

theorem run_polling_iff {h : Handler} {inputs : List Input} : (run h inputs).poller = .polling ↔
    h.poller = .polling ∧ ∀ input ∈ inputs, input.Decodable := by
  induction inputs generalizing h with
  | nil => simp [run]
  | cons input rest ih =>
      rw [List.forall_mem_cons, ← and_assoc, ← step_polling_iff]
      exact ih

theorem leave_eq_none_iff {h : Handler} : leave h = none ↔ h.poller = .polling := by
  rw [leave]
  cases h.poller <;> simp

/-- A watch lasts exactly as long as each document lists events of the known shape. -/
theorem watch_lasts_iff (shutdownEvent disabled : Bool) (inputs : List Input) :
    Watches { shutdownEvent, disabled } inputs ↔
      ∀ data, Input.answers (.document data) ∈ inputs → IsListing data := by
  constructor
  · intro watches data answered
    have polling := watches.polls inputs [] (List.append_nil inputs).symm
    exact (run_polling_iff.mp polling).2 _ answered
  · intro listings
    have decodable : ∀ input ∈ inputs, input.Decodable := by
      intro input member
      match input with
      | .answers (.document data) => exact listings data member
      | .answers .fails | .sets | .clears => trivial
    constructor
    · rintro before after rfl
      apply run_polling_iff.mpr
      exact ⟨rfl, fun input member => decodable input (List.mem_append_left after member)⟩
    · exact leave_eq_none_iff.mpr (run_polling_iff.mpr ⟨rfl, decodable⟩)

/-- An error that the service reports as a document. -/
theorem error_document_stops : ¬ Watches { shutdownEvent := false, disabled := false }
    [.answers (.document (.obj [("error", .str "Too many requests")]))] := by
  intro watches
  cases watches.leaves

end JobQ.ScheduledEvents
