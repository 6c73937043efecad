import JobQ.Model.Workforce.ExtraFilters
import JobQ.Proof.Workforce.ListJobs

/-!
# Whose filters a request carries

As long as no call that runs filters by status, the caller's list stays as it is. Any other call
leaves its own filter behind.
-/

namespace JobQ.ExtraFilters

open JsonText ListJobs Mealy Workforce

variable {DateTime Number : Type} {readers : Readers DateTime Number} {config : ListJobs.Config}
  {original : List Json}

/-! ## One listing -/

def HasFilters (config : ListJobs.Config) (filters : List Json) (request : ListJobs.Request) : Prop :=
  getItem request.json "filters" = some (.arr (baseFilters config ++ filters))

theorem mem_page {sent request : ListJobs.Request} {jobs : List (ListJobs.AmlJob DateTime Number)}
    (member : ListJobs.Event.requested request ∈ .requested sent :: jobs.map .yielded) :
    request = sent := by
  rcases List.mem_cons.mp member with same | yields
  · cases same
    rfl
  · obtain ⟨job, -, same⟩ := List.mem_map.mp yields
    cases same

theorem fetchPages_filters {workspace : String} {maxJobs : Option Int} {ordering : ListJobs.Ordering}
    {filters : List Json} {token : Json} {total : Nat} {rounds : List Round} {request : ListJobs.Request}
    (sent : .requested request ∈ (fetchPages readers config workspace maxJobs
      (payload config ordering filters) token total rounds).events) :
    HasFilters config filters request := by
  induction rounds generalizing token total with
  | nil => cases sent
  | cons round rest ih =>
      rw [fetchPages] at sent
      cases known : round.token with
      | error message =>
          rw [known] at sent
          cases sent
      | ok secret =>
          have own : HasFilters config filters
              (pageRequest config workspace (payload config ordering filters) secret token) := rfl
          rw [known] at sent
          dsimp only at sent
          cases read : readPage config
              (RequestWithRetry.requestWithRetry none round.request round.jitter round.clock).ending with
          | error exc =>
              rw [read] at sent
              cases List.mem_singleton.mp sent
              exact own
          | ok page =>
              rw [read] at sent
              dsimp only at sent
              split at sent
              · rw [mem_page sent]
                exact own
              · rcases List.mem_append.mp sent with now | later
                · rw [mem_page now]
                  exact own
                · exact ih later

theorem listJobs_filters {withStatus : Option (List Status)} {ordering : ListJobs.Ordering}
    {maxJobs : Option Int} {filters : List Json} {rounds : List Round} {request : ListJobs.Request}
    (sent : .requested request ∈
      (listJobs readers config withStatus ordering maxJobs (some filters) rounds).events) :
    HasFilters config (extend filters withStatus) request := by
  rw [listJobs] at sent
  cases named : config.workspaceName with
  | none =>
      rw [named] at sent
      cases sent
  | some workspace =>
      rw [named] at sent
      exact fetchPages_filters sent

/-! ## Parts of a listing -/

section

variable {events rest : List (ListJobs.Event DateTime Number)}
  {job : ListJobs.AmlJob DateTime Number}

theorem advance_events (events : List (ListJobs.Event DateTime Number)) :
    events = (advance events).1.map .requested ++
      (advance events).2.elim [] fun left => .yielded left.1 :: left.2 := by
  induction events with
  | nil => rfl
  | cons event rest ih =>
      cases event with
      | requested request => exact congrArg (.requested request :: ·) ih
      | yielded job => rfl

theorem advance_subset {request : ListJobs.Request} (member : request ∈ (advance events).1) :
    .requested request ∈ events := by
  rw [advance_events events]
  exact List.mem_append_left _ (List.mem_map_of_mem member)

theorem advance_rest {request : ListJobs.Request} (left : (advance events).2 = some (job, rest))
    (member : .requested request ∈ rest) : .requested request ∈ events := by
  rw [advance_events events, left]
  exact List.mem_append_right _ (List.mem_cons_of_mem _ member)

end

/-! ## Steps -/

variable {s t : State DateTime Number} {a : Action} {new es : List (Event DateTime Number)}

/-- The statuses by which the listing filters that a step makes run for the first time. -/
def statusOf (s : State DateTime Number) : Action → Option (List Status)
  | .listJobs _ => none
  | .next i =>
    match s.generators[i]? with
    | some (.created call) => call.withStatus
    | _ => none
  | .getDetailedState _ | .getCurrentState _ => some activeStatuses

def Untouching (s : State DateTime Number) (a : Action) : Prop := statusOf s a = none

/-- The list is as it was, and every request has the filters of the list and of its own call. -/
structure LeavesAlone (config : ListJobs.Config) (original : List Json) (es : List (Event DateTime Number))
    (s : State DateTime Number) : Prop where
  unchanged : s.filters = original
  requests : ∀ withStatus request, .requested withStatus request ∈ es →
    HasFilters config (extend original withStatus) request

/-- What a suspended generator is still going to request. -/
structure Sound (config : ListJobs.Config) (original : List Json) (es : List (Event DateTime Number))
    (s : State DateTime Number) : Prop extends LeavesAlone config original es s where
  pending : ∀ withStatus run, .suspended withStatus run ∈ s.generators →
    ∀ request, .requested request ∈ run.events → HasFilters config (extend original withStatus) request

theorem resume_filters (s : State DateTime Number) (i : Nat) (withStatus : Option (List Status))
    (run : ListJobs.Run DateTime Number) : (resume s i withStatus run).1.filters = s.filters := by
  unfold resume
  split <;> rfl

theorem next_cases {i : Nat} (action : step readers config s (.next i) = some (t, new)) :
    (∃ call, s.generators[i]? = some (.created call) ∧
      resume { s with filters := extend s.filters call.withStatus } i call.withStatus
        (listJobs readers config call.withStatus call.ordering call.maxJobs (some s.filters) call.rounds) =
          (t, new)) ∨
    (∃ withStatus run, s.generators[i]? = some (.suspended withStatus run) ∧
      resume s i withStatus run = (t, new)) ∨
    s.generators[i]? = some .finished ∧ s = t ∧ [.ended i .stops] = new := by
  unfold step at action
  dsimp only at action
  cases found : s.generators[i]? with
  | none =>
      rw [found] at action
      cases action
  | some g =>
      rw [found] at action
      cases g with
      | created call => exact .inl ⟨call, rfl, Option.some.inj action⟩
      | suspended withStatus run => exact .inr (.inl ⟨withStatus, run, rfl, Option.some.inj action⟩)
      | executing => cases action
      | finished => exact .inr (.inr ⟨rfl, Prod.mk.inj (Option.some.inj action)⟩)

theorem step_filters (action : step readers config s a = some (t, new)) :
    t.filters = extend s.filters (statusOf s a) := by
  cases a with
  | next i =>
      rcases next_cases action with ⟨call, found, stepped⟩ | ⟨withStatus, run, found, stepped⟩ |
        ⟨found, rfl, -⟩
      · have kept := resume_filters { s with filters := extend s.filters call.withStatus } i
          call.withStatus (listJobs readers config call.withStatus call.ordering call.maxJobs
            (some s.filters) call.rounds)
        rw [stepped] at kept
        simp only [statusOf, found]
        exact kept
      · have kept := resume_filters s i withStatus run
        rw [stepped] at kept
        simp only [statusOf, found]
        exact kept
      · simp only [statusOf, found]
        rfl
  | _ =>
      cases action
      rfl

/-! ## Runs -/

theorem requests_emit {requests : List ListJobs.Request} {own : Option (List Status)}
    {last : Event DateTime Number}
    (before : ∀ withStatus request, .requested withStatus request ∈ es →
      HasFilters config (extend original withStatus) request)
    (now : ∀ request ∈ requests, HasFilters config (extend original own) request)
    (other : ∀ withStatus request, last ≠ .requested withStatus request) :
    ∀ withStatus request, .requested withStatus request ∈ es ++ (requests.map (.requested own) ++ [last]) →
      HasFilters config (extend original withStatus) request := by
  intro withStatus request member
  rcases List.mem_append.mp member with earlier | member
  · exact before withStatus request earlier
  · rcases List.mem_append.mp member with sent | last
    · obtain ⟨_, listed, same⟩ := List.mem_map.mp sent
      cases same
      exact now request listed
    · exact absurd (List.mem_singleton.mp last).symm (other withStatus request)

theorem Sound.resume (sound : Sound config original es s) (i : Nat) {withStatus : Option (List Status)}
    {run : ListJobs.Run DateTime Number}
    (clean : ∀ request, .requested request ∈ run.events →
      HasFilters config (extend original withStatus) request)
    (stepped : resume s i withStatus run = (t, new)) : Sound config original (es ++ new) t := by
  have kept := resume_filters s i withStatus run
  rw [stepped] at kept
  have sent (request : ListJobs.Request) (member : request ∈ (advance run.events).1) :
      HasFilters config (extend original withStatus) request := clean request (advance_subset member)
  unfold ExtraFilters.resume at stepped
  split at stepped
  · rename_i requests job rest advanced
    rw [advanced] at sent
    cases stepped
    refine ⟨⟨kept.trans sound.unchanged, requests_emit sound.requests sent (by simp)⟩, ?_⟩
    intro own later member request pending
    rcases List.mem_or_eq_of_mem_set member with old | now
    · exact sound.pending own later old request pending
    · cases now
      exact clean request (advance_rest (congrArg Prod.snd advanced) pending)
  · rename_i requests advanced
    rw [advanced] at sent
    cases stepped
    refine ⟨⟨kept.trans sound.unchanged, requests_emit sound.requests sent (by simp)⟩, ?_⟩
    intro own later member request pending
    rcases List.mem_or_eq_of_mem_set member with old | now
    · exact sound.pending own later old request pending
    · split at now <;> cases now

theorem Sound.step (sound : Sound config original es s) (untouching : Untouching s a)
    (action : step readers config s a = some (t, new)) : Sound config original (es ++ new) t := by
  cases a with
  | listJobs call =>
      cases action
      refine ⟨⟨sound.unchanged, by simpa using sound.requests⟩, ?_⟩
      intro own later member request pending
      rcases List.mem_append.mp member with old | now
      · exact sound.pending own later old request pending
      · cases List.mem_singleton.mp now
  | next i =>
      rcases next_cases action with ⟨call, found, stepped⟩ | ⟨withStatus, run, found, stepped⟩ |
        ⟨-, rfl, rfl⟩
      · have noStatus : call.withStatus = none := by
          simpa only [Untouching, statusOf, found] using untouching
        have same : { s with filters := extend s.filters call.withStatus } = s := by
          rw [noStatus]
          rfl
        rw [same] at stepped
        apply sound.resume i _ stepped
        intro request sent
        rw [← sound.unchanged]
        exact listJobs_filters sent
      · exact sound.resume i (sound.pending withStatus run (List.mem_of_getElem? found)) stepped
      · refine ⟨⟨sound.unchanged, ?_⟩, sound.pending⟩
        intro withStatus request member
        rcases List.mem_append.mp member with earlier | now
        · exact sound.requests withStatus request earlier
        · cases List.mem_singleton.mp now
  | getDetailedState rounds => cases untouching
  | getCurrentState rounds => cases untouching

theorem extend_length (filters : List Json) (withStatus : Option (List Status)) :
    (extend filters withStatus).length = filters.length + withStatus.toList.length := by
  cases withStatus with
  | none => rfl
  | some statuses => exact List.length_append

theorem filters_grow (run : Run (machine readers config) always (⟨original, []⟩, []) es s) :
    original.length ≤ s.filters.length := by
  apply run.state_invariant (P := fun s => original.length ≤ s.filters.length) (Nat.le_refl _)
  intro s a t new longer _ action
  rw [step_filters action, extend_length]
  exact Nat.le_add_right_of_le longer

/-- A filter that is left behind stays. -/
theorem untouching_of_length (run : Run (machine readers config) always (⟨original, []⟩, []) es s)
    (same : s.filters.length = original.length) :
    Run (machine readers config) Untouching (⟨original, []⟩, []) es s := by
  induction run with
  | refl => exact .refl
  | @next es s t a new previous _ action ih =>
      have grown := filters_grow previous
      rw [step_filters action, extend_length] at same
      have quiet : (statusOf s a).toList.length = 0 := by omega
      have untouching : Untouching s a := by
        simpa [Untouching] using quiet
      exact (ih (by omega)).next untouching action

theorem leavesAlone_iff (readers : Readers DateTime Number) (config : ListJobs.Config) (original : List Json)
    (es : List (Event DateTime Number)) (s : State DateTime Number)
    (run : Run (machine readers config) always (⟨original, []⟩, []) es s) :
    LeavesAlone config original es s ↔
      Run (machine readers config) Untouching (⟨original, []⟩, []) es s := by
  constructor
  · intro leaves
    exact untouching_of_length run (congrArg List.length leaves.unchanged)
  · intro untouched
    have initial : Sound config original [] (⟨original, []⟩ : State DateTime Number) :=
      ⟨⟨rfl, nofun⟩, nofun⟩
    exact (untouched.invariant (P := Sound config original) initial
      fun _ _ _ _ _ sound untouching action => sound.step untouching action).toLeavesAlone

/-! ## Two calls with one list -/

def emptyPage : Page plainReaders sampleConfig "ws" where
  data := [("value", .arr [])]
  raws := []
  jobs := []
  lists := rfl
  builds := .nil

def emptyRound : Round where
  token := .ok "secret"
  request _ := .response ⟨200, {}, text (.obj emptyPage.data)⟩
  jitter _ := default
  clock _ := default

theorem emptyRound_answers : Answers emptyRound emptyPage where
  token := ⟨"secret", rfl⟩
  response := by
    have wellFormed : WellFormed (.obj emptyPage.data) := by
      simp [emptyPage, WellFormed, MembersWellFormed, ItemsWellFormed]
    exact ⟨{}, text (.obj emptyPage.data), loads_text wellFormed, rfl⟩

def sampleRequest (filters : List Json) : ListJobs.Request :=
  pageRequest sampleConfig "ws" (payload sampleConfig .asc filters) "secret" .null

theorem emptyPage_listed (withStatus : Option (List Status)) (filters : List Json) :
    listJobs plainReaders sampleConfig withStatus .asc none (some filters) [emptyRound] =
      ⟨[.requested (sampleRequest (extend filters withStatus))], .stops⟩ := by
  have named : sampleConfig.workspaceName = some "ws" := rfl
  have known : emptyRound.token = .ok "secret" := rfl
  have read := readPage_answered emptyRound_answers.response
  have raws : emptyPage.raws = [] := rfl
  have last : nextPage (.obj emptyPage.data) (.ok 0) = .error .stops := nextPage_last rfl
  simp only [listJobs, named, fetchPages, known, read, raws, yieldJobs, last]
  rfl

/-- A call that filters by the statuses, if any, and whose only page has no jobs. -/
def sampleCall (withStatus : Option (List Status)) : Call := ⟨withStatus, .asc, none, [emptyRound]⟩

theorem sampleCall_next (filters : List Json) (generators : List (Generator String Rat))
    (withStatus : Option (List Status)) :
    step plainReaders sampleConfig ⟨filters, generators ++ [.created (sampleCall withStatus)]⟩
        (.next generators.length) =
      some (⟨extend filters withStatus, generators ++ [.finished]⟩,
        [.requested withStatus (sampleRequest (extend filters withStatus)),
          .ended generators.length .stops]) := by
  have created : (generators ++ [.created (sampleCall withStatus)])[generators.length]? =
      some (.created (sampleCall withStatus)) := List.getElem?_concat_length
  have finished (g h : Generator String Rat) :
      (generators ++ [g]).set generators.length h = generators ++ [h] := by
    rw [List.set_append_right _ _ (Nat.le_refl _), Nat.sub_self, List.set_cons_zero]
  have listed : listJobs plainReaders sampleConfig (sampleCall withStatus).withStatus
      (sampleCall withStatus).ordering (sampleCall withStatus).maxJobs (some filters)
      (sampleCall withStatus).rounds = ⟨[.requested (sampleRequest (extend filters withStatus))], .stops⟩ :=
    emptyPage_listed withStatus filters
  simp only [step, created, listed, resume, advance, State.put, finished]
  rfl

theorem sampleCall_runs {G : State String Rat → Action → Prop} {filters : List Json}
    {generators : List (Generator String Rat)} {log : List (Event String Rat)}
    (previous : Run (machine plainReaders sampleConfig) G (⟨original, []⟩, []) log ⟨filters, generators⟩)
    (withStatus : Option (List Status)) (calls : G ⟨filters, generators⟩ (.listJobs (sampleCall withStatus)))
    (asks : G ⟨filters, generators ++ [.created (sampleCall withStatus)]⟩ (.next generators.length)) :
    Run (machine plainReaders sampleConfig) G (⟨original, []⟩, [])
      (log ++ [.requested withStatus (sampleRequest (extend filters withStatus)),
        .ended generators.length .stops])
      ⟨extend filters withStatus, generators ++ [.finished]⟩ := by
  have created := previous.next calls (u := ⟨filters, generators ++ [.created (sampleCall withStatus)]⟩) rfl
  rw [List.append_nil] at created
  exact created.next asks (sampleCall_next filters generators withStatus)

def aliceFilter : Json := eqFilter "properties/userName" ["alice"]

/-- Two calls with one list, one after the other. -/
theorem leavesAlone_sample : LeavesAlone sampleConfig [aliceFilter]
    [.requested none (sampleRequest [aliceFilter]), .ended 0 .stops,
      .requested none (sampleRequest [aliceFilter]), .ended 1 .stops]
    (⟨[aliceFilter], [.finished, .finished]⟩ : State String Rat) := by
  have first : Run (machine plainReaders sampleConfig) always (⟨[aliceFilter], []⟩, []) _ _ :=
    sampleCall_runs .refl none trivial trivial
  have quiet : Run (machine plainReaders sampleConfig) Untouching (⟨[aliceFilter], []⟩, []) _ _ :=
    sampleCall_runs .refl none rfl rfl
  exact (leavesAlone_iff plainReaders sampleConfig [aliceFilter] _ _
    (sampleCall_runs first none trivial trivial)).mpr (sampleCall_runs quiet none rfl rfl)

def pausedFilter : Json := eqFilter "annotations/status" ["Paused"]
def runningFilter : Json := eqFilter "annotations/status" ["Running"]

/-- The second call asks for jobs that are paused and running. -/
theorem second_call_not_alone : ∃ es s,
    Run (machine plainReaders sampleConfig) always (⟨[], []⟩, []) es s ∧
      s.filters = [pausedFilter, runningFilter] ∧
      .requested (some [.running]) (sampleRequest [pausedFilter, runningFilter]) ∈ es ∧
      ¬ LeavesAlone sampleConfig [] es s := by
  have first : Run (machine plainReaders sampleConfig) always (⟨[], []⟩, []) _ _ :=
    sampleCall_runs .refl (some [.paused]) trivial trivial
  have second := sampleCall_runs first (some [.running]) trivial trivial
  refine ⟨_, _, second, rfl, ?_, fun leaves => ?_⟩
  · exact List.mem_append_right _ List.mem_cons_self
  · cases leaves.unchanged

end JobQ.ExtraFilters
