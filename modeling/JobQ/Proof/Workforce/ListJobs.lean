import JobQ.Library.JsonRoundTrip
import JobQ.Model.Workforce.ListJobs

/-!
# Pagination

The pages that the service lists are read in order, and no page is asked for after the one that
reaches the limit. Only a limit of zero is tested too late.
-/

namespace JobQ.ListJobs

open JsonText RequestWithRetry

variable {DateTime Number : Type} {readers : Readers DateTime Number} {config : Config}
  {workspace : String}

/-! ## Pages -/

/-- A page whose jobs can all be read. -/
structure Page (readers : Readers DateTime Number) (config : Config) (workspace : String) where
  data : Members
  raws : List Json
  jobs : List (AmlJob DateTime Number)
  lists : getItem data "value" = some (.arr raws)
  builds : List.Forall₂ (fun raw job => buildJob readers config workspace raw = .ok job) raws jobs

/-- A page without a token reads as one whose token is null. -/
def Page.continuationToken (page : Page readers config workspace) : Json :=
  (getItem page.data "continuationToken").getD .null

structure Answers (round : Round) (page : Page readers config workspace) : Prop where
  token : ∃ token, round.token = .ok token
  response : ∃ headers, ∃ text : String, loads text = some (.obj page.data) ∧
    (requestWithRetry none round.request round.jitter round.clock).ending = .returned ⟨200, headers, text⟩

/-- All pages but the last carry a token. -/
inductive Paged : List (Page readers config workspace) → Prop
  | last {page : Page readers config workspace} (ends : page.continuationToken = .null) : Paged [page]
  | more {page : Page readers config workspace} {pages : List (Page readers config workspace)}
      (carries : page.continuationToken ≠ .null) (rest : Paged pages) : Paged (page :: pages)

def listed (pages : List (Page readers config workspace)) : List (AmlJob DateTime Number) :=
  pages.flatMap (·.jobs)

/-! ## What a run does -/

def Run.yielded (run : Run DateTime Number) : List (AmlJob DateTime Number) :=
  run.events.filterMap fun
    | .yielded job => some job
    | .requested _ => none

/-- The tokens of the pages that are asked for. -/
def Run.requested (run : Run DateTime Number) : List Json :=
  run.events.filterMap fun
    | .requested request => getItem request.json "continuationToken"
    | .yielded _ => none

def first {α : Type} : Option Nat → List α → List α
  | none, jobs => jobs
  | some limit, jobs => jobs.take limit

/-- The jobs up to the limit, from no more pages than it takes. -/
structure Exact (pages : List (Page readers config workspace)) (maxJobs : Option Nat)
    (run : Run DateTime Number) : Prop where
  yielded : run.yielded = first maxJobs (listed pages)
  tokens : run.requested = (Json.null :: pages.map (·.continuationToken)).take run.requested.length
  bound : run.requested.length ≤ pages.length
  needed : ∀ k, 0 < k → k < run.requested.length →
    ∀ limit ∈ maxJobs, (listed (pages.take k)).length < limit
  ends : run.ending = .stops

/-! ## One page -/

section

variable {total limit : Nat} {raws : List Json}
  {jobs : List (AmlJob DateTime Number)}

theorem yieldJobs_all (maxJobs : Option Nat) (total : Nat)
    (builds : List.Forall₂ (fun raw job => buildJob readers config workspace raw = .ok job) raws jobs)
    (below : ∀ limit ∈ maxJobs, total + jobs.length < limit ∨ jobs = []) :
    yieldJobs readers config workspace (maxJobs.map Int.ofNat) total raws =
      (jobs, .ok (total + jobs.length)) := by
  induction builds generalizing total with
  | nil => rfl
  | @cons raw job raws jobs built others ih =>
      have more (limit : Nat) (given : limit ∈ maxJobs) : total + 1 + jobs.length < limit := by
        rcases below limit given with below | empty
        · rw [List.length_cons] at below
          omega
        · cases empty
      have untouched : ¬(maxJobs.map Int.ofNat).any (fun limit => limit ≤ ((total + 1 : Nat) : Int)) := by
        cases maxJobs with
        | none => exact Bool.false_ne_true
        | some limit =>
            have := more limit rfl
            simp only [Option.map_some, Option.any_some, decide_eq_true_eq]
            show ¬(limit : Int) ≤ ((total + 1 : Nat) : Int)
            omega
      rw [yieldJobs, built]
      dsimp only
      rw [if_neg untouched, ih (total + 1) fun limit given => .inl (more limit given), List.length_cons,
        Nat.add_right_comm, Nat.add_assoc]

theorem yieldJobs_reached
    (builds : List.Forall₂ (fun raw job => buildJob readers config workspace raw = .ok job) raws jobs)
    (before : total < limit) (reached : limit ≤ total + jobs.length) :
    yieldJobs readers config workspace (some (limit : Int)) total raws =
      (jobs.take (limit - total), .error .stops) := by
  induction builds generalizing total with
  | nil =>
      rw [List.length_nil] at reached
      omega
  | @cons raw job raws jobs built others ih =>
      rw [List.length_cons] at reached
      rw [yieldJobs, built]
      simp only [Option.any_some, decide_eq_true_eq]
      by_cases last : limit = total + 1
      · have one : limit - total = 1 := by omega
        rw [if_pos (by omega), one]
        rfl
      · have rest : limit - total = limit - (total + 1) + 1 := by omega
        rw [if_neg (by omega), ih (by omega) (by omega), rest, List.take_succ_cons]

/-- A limit of zero lets one job through. -/
theorem yieldJobs_zero (total : Nat) {raw : Json} {job : AmlJob DateTime Number} (rest : List Json)
    (built : buildJob readers config workspace raw = .ok job) :
    yieldJobs readers config workspace (some 0) total (raw :: rest) = ([job], .error .stops) := by
  have reached : (0 : Int) ≤ ((total + 1 : Nat) : Int) := Int.natCast_nonneg _
  rw [yieldJobs, built]
  simp only [Option.any_some, decide_eq_true_eq, if_pos reached]

end

section

variable {maxJobs : Option Int} {token : Json} {total : Nat} {round : Round}
  {page : Page readers config workspace} {jobs : List (AmlJob DateTime Number)}
  {after : Except Ending Nat}

theorem readPage_answered {ending : RequestWithRetry.Ending}
    (response : ∃ headers, ∃ text : String, loads text = some (.obj page.data) ∧
      ending = .returned ⟨200, headers, text⟩) :
    readPage config ending = .ok (.obj page.data, page.raws) := by
  obtain ⟨headers, text, read, rfl⟩ := response
  have present : hasValue (.obj page.data) = .ok true := by
    rw [hasValue, page.lists]
    rfl
  have value : subscript (.obj page.data) "value" = .ok (.arr page.raws) := by
    rw [subscript, page.lists]
  simp [readPage, read, present, value, iterate, bind, Except.bind, pure, Except.pure]

theorem get_continuationToken (page : Page readers config workspace) :
    get (.obj page.data) "continuationToken" = .ok page.continuationToken := rfl

theorem nextPage_last (ends : page.continuationToken = .null) :
    nextPage (.obj page.data) (.ok total) = .error .stops := by
  simp only [nextPage, get_continuationToken, ends, bind, Except.bind]

theorem nextPage_more (carries : page.continuationToken ≠ .null) :
    nextPage (.obj page.data) (.ok total) = .ok (page.continuationToken, total) := by
  simp only [nextPage, get_continuationToken, bind, Except.bind]
  cases next : page.continuationToken with
  | null => contradiction
  | _ => rfl

/-- The request for a page, and what it yields. -/
def Shows (token : Json) (jobs : List (AmlJob DateTime Number))
    (events : List (Event DateTime Number)) : Prop :=
  ∃ request, getItem request.json "continuationToken" = some token ∧
    events = .requested request :: jobs.map .yielded

theorem Shows.yielded {events : List (Event DateTime Number)} (shows : Shows token jobs events)
    (run : Run DateTime Number) :
    Run.yielded ⟨events ++ run.events, run.ending⟩ = jobs ++ run.yielded := by
  obtain ⟨request, -, rfl⟩ := shows
  simp [Run.yielded, List.filterMap_map]

theorem Shows.requested {events : List (Event DateTime Number)} (shows : Shows token jobs events)
    (run : Run DateTime Number) :
    Run.requested ⟨events ++ run.events, run.ending⟩ = token :: run.requested := by
  obtain ⟨request, asks, rfl⟩ := shows
  simp [Run.requested, asks, List.filterMap_map]

theorem fetchPages_ends (ordering : Ordering) (filters : List Json) (token : Json)
    (rest : List Round) (answers : Answers round page) {ending : Ending}
    (yields : yieldJobs readers config workspace maxJobs total page.raws = (jobs, after))
    (ends : nextPage (.obj page.data) after = .error ending) :
    ∃ events, Shows token jobs events ∧
      fetchPages readers config workspace maxJobs (payload config ordering filters) token total
        (round :: rest) = ⟨events, ending⟩ := by
  obtain ⟨⟨secret, known⟩, response⟩ := answers
  refine ⟨_, ⟨pageRequest config workspace (payload config ordering filters) secret token, rfl, rfl⟩, ?_⟩
  simp only [fetchPages, known, readPage_answered response, yields, ends]

theorem fetchPages_continues (ordering : Ordering) (filters : List Json) (token : Json)
    (rest : List Round) (answers : Answers round page) {next : Json} {totalNext : Nat}
    (yields : yieldJobs readers config workspace maxJobs total page.raws = (jobs, after))
    (more : nextPage (.obj page.data) after = .ok (next, totalNext)) :
    ∃ events, Shows token jobs events ∧
      fetchPages readers config workspace maxJobs (payload config ordering filters) token total
        (round :: rest) =
      let run := fetchPages readers config workspace maxJobs (payload config ordering filters) next
        totalNext rest
      ⟨events ++ run.events, run.ending⟩ := by
  obtain ⟨⟨secret, known⟩, response⟩ := answers
  refine ⟨_, ⟨pageRequest config workspace (payload config ordering filters) secret token, rfl, rfl⟩, ?_⟩
  simp only [fetchPages, known, readPage_answered response, yields, more]

end

/-! ## All pages -/

theorem first_append {α : Type} {maxJobs : Option Nat} {front : List α}
    (fits : ∀ limit ∈ maxJobs, front.length ≤ limit) (back : List α) :
    first maxJobs (front ++ back) = front ++ first (maxJobs.map (· - front.length)) back := by
  cases maxJobs with
  | none => rfl
  | some limit =>
      show (front ++ back).take limit = front ++ back.take (limit - front.length)
      rw [List.take_append, List.take_of_length_le (fits limit rfl)]

/-- As `Exact`, from the page of the token on, when some jobs have been yielded before. -/
structure Continues (token : Json) (total : Nat) (pages : List (Page readers config workspace))
    (maxJobs : Option Nat) (run : Run DateTime Number) : Prop where
  yielded : run.yielded = first (maxJobs.map (· - total)) (listed pages)
  tokens : run.requested = (token :: pages.map (·.continuationToken)).take run.requested.length
  bound : run.requested.length ≤ pages.length
  needed : ∀ k, 0 < k → k < run.requested.length →
    ∀ limit ∈ maxJobs, total + (listed (pages.take k)).length < limit
  ends : run.ending = .stops

section

variable {maxJobs : Option Nat} {ordering : Ordering} {filters : List Json} {token : Json}
  {total limit : Nat} {round : Round} {rounds rest : List Round}
  {page : Page readers config workspace} {pages : List (Page readers config workspace)}

/-- The generator ends with a page whose jobs are all that is wanted. -/
theorem Continues.of_page {jobs : List (AmlJob DateTime Number)} {events : List (Event DateTime Number)}
    (shows : Shows token jobs events)
    (enough : jobs = first (maxJobs.map (· - total)) (listed (page :: pages))) :
    Continues token total (page :: pages) maxJobs ⟨events, .stops⟩ := by
  have yielded := shows.yielded ⟨[], .stops⟩
  have requested := shows.requested ⟨[], .stops⟩
  rw [List.append_nil] at yielded requested
  have requested : Run.requested ⟨events, .stops⟩ = [token] := requested
  refine ⟨?_, ?_, ?_, ?_, rfl⟩
  · rw [yielded, ← enough]
    exact List.append_nil jobs
  · rw [requested]
    rfl
  · rw [requested]
    exact Nat.succ_le_succ (Nat.zero_le _)
  · intro k positive before
    rw [requested, List.length_singleton] at before
    omega

theorem continues_reached (answers : Answers round page) (before : total < limit)
    (reached : limit ≤ total + page.jobs.length) :
    Continues token total (page :: pages) (some limit)
      (fetchPages readers config workspace (some (limit : Int)) (payload config ordering filters) token
        total (round :: rest)) := by
  have yields := yieldJobs_reached page.builds before reached
  obtain ⟨events, shows, run⟩ := fetchPages_ends ordering filters token rest answers yields rfl
  rw [run]
  apply Continues.of_page shows
  show page.jobs.take (limit - total) = (page.jobs ++ listed pages).take (limit - total)
  rw [List.take_append_of_le_length (by omega)]

theorem page_fits (below : ∀ limit ∈ maxJobs, total + page.jobs.length < limit) :
    ∀ wanted ∈ maxJobs.map (· - total), page.jobs.length ≤ wanted := by
  intro wanted given
  obtain ⟨limit, asked, rfl⟩ := Option.map_eq_some_iff.mp given
  have := below limit asked
  omega

theorem page_reaches (below : ∀ limit ∈ maxJobs, total < limit)
    (full : ¬∀ limit ∈ maxJobs, total + page.jobs.length < limit) :
    ∃ limit, maxJobs = some limit ∧ total < limit ∧ limit ≤ total + page.jobs.length := by
  push Not at full
  obtain ⟨limit, given, reached⟩ := full
  exact ⟨limit, given, below limit given, reached⟩

theorem Continues.of_more {events : List (Event DateTime Number)} {run : Run DateTime Number}
    (shows : Shows token page.jobs events)
    (below : ∀ limit ∈ maxJobs, total + page.jobs.length < limit)
    (later : Continues page.continuationToken (total + page.jobs.length) pages maxJobs run) :
    Continues token total (page :: pages) maxJobs ⟨events ++ run.events, run.ending⟩ := by
  have yielded := shows.yielded run
  have requested := shows.requested run
  refine ⟨?_, ?_, ?_, ?_, later.ends⟩
  · have whole : listed (page :: pages) = page.jobs ++ listed pages := List.flatMap_cons
    rw [yielded, later.yielded, whole, first_append (page_fits below), Option.map_map]
    congr 2
    apply Option.map_congr
    intro limit _
    exact Nat.sub_add_eq limit total page.jobs.length
  · rw [requested, List.length_cons, List.take_succ_cons, List.map_cons, ← later.tokens]
  · rw [requested]
    exact Nat.succ_le_succ later.bound
  · intro k positive before limit given
    rw [requested, List.length_cons] at before
    obtain ⟨k, rfl⟩ : ∃ j, k = j + 1 := ⟨k - 1, by omega⟩
    rw [List.take_succ_cons]
    show total + (page.jobs ++ listed (pages.take k)).length < limit
    rw [List.length_append, ← Nat.add_assoc]
    cases k with
    | zero => exact below limit given
    | succ k => exact later.needed (k + 1) (Nat.succ_pos k) (by omega) limit given

theorem fetchPages_exact (paged : Paged pages) (serves : List.Forall₂ Answers rounds pages)
    (below : ∀ limit ∈ maxJobs, total < limit) :
    Continues token total pages maxJobs
      (fetchPages readers config workspace (maxJobs.map Int.ofNat) (payload config ordering filters)
        token total rounds) := by
  induction paged generalizing rounds token total with
  | @last page ends =>
      cases serves with
      | cons answers none =>
          by_cases fits : ∀ limit ∈ maxJobs, total + page.jobs.length < limit
          · have yields := yieldJobs_all maxJobs total page.builds fun limit given => .inl (fits limit given)
            obtain ⟨events, shows, run⟩ := fetchPages_ends ordering filters token _ answers yields
              (nextPage_last ends)
            rw [run]
            apply Continues.of_page shows
            show page.jobs = first _ (page.jobs ++ [])
            rw [first_append (page_fits fits)]
            cases maxJobs <;> simp [first]
          · obtain ⟨limit, rfl, before, reached⟩ := page_reaches below fits
            exact continues_reached answers before reached
  | @more page pages carries rest ih =>
      cases serves with
      | cons answers serves =>
          by_cases fits : ∀ limit ∈ maxJobs, total + page.jobs.length < limit
          · have yields := yieldJobs_all maxJobs total page.builds fun limit given => .inl (fits limit given)
            obtain ⟨events, shows, run⟩ := fetchPages_continues ordering filters token _ answers yields
              (nextPage_more carries)
            rw [run]
            exact .of_more shows fits (ih serves fits)
          · obtain ⟨limit, rfl, before, reached⟩ := page_reaches below fits
            exact continues_reached answers before reached

/-! ## A limit of zero -/

theorem exact_of_continues {run : Run DateTime Number}
    (continues : Continues .null 0 pages maxJobs run) : Exact pages maxJobs run := by
  refine ⟨?_, continues.tokens, continues.bound, ?_, continues.ends⟩
  · rw [continues.yielded]
    cases maxJobs <;> rfl
  · intro k positive before limit given
    have needed := continues.needed k positive before limit given
    rwa [Nat.zero_add] at needed

theorem Paged.exists_cons (paged : Paged pages) : ∃ page others, pages = page :: others := by
  cases paged with
  | last ends => exact ⟨_, _, rfl⟩
  | more carries rest => exact ⟨_, _, rfl⟩

theorem fetchPages_requests (paged : Paged pages) (serves : List.Forall₂ Answers rounds pages)
    (maxJobs : Option Int) :
    0 < (Run.requested (fetchPages readers config workspace maxJobs
      (payload config ordering filters) token total rounds)).length := by
  obtain ⟨page, others, rfl⟩ := paged.exists_cons
  obtain ⟨round, rest, answers, -, rfl⟩ := List.forall₂_cons_right_iff.mp serves
  obtain ⟨jobs, after⟩ : ∃ jobs, ∃ after,
      yieldJobs readers config workspace maxJobs total page.raws = (jobs, after) := ⟨_, _, rfl⟩
  obtain ⟨after, yields⟩ := after
  cases continues : nextPage (.obj page.data) after with
  | error ending =>
      obtain ⟨events, shows, run⟩ := fetchPages_ends ordering filters token rest answers yields continues
      have requested := shows.requested ⟨[], ending⟩
      rw [List.append_nil] at requested
      rw [run, requested]
      exact Nat.succ_pos _
  | ok next =>
      obtain ⟨events, shows, run⟩ :=
        fetchPages_continues ordering filters token rest answers yields continues
      rw [run, shows.requested]
      exact Nat.succ_pos _

theorem fetchPages_zero_job {job : AmlJob DateTime Number} {jobs : List (AmlJob DateTime Number)}
    (answers : Answers round page) (lists : page.jobs = job :: jobs) :
    Run.yielded (fetchPages readers config workspace (some 0) (payload config ordering filters) token 0
      (round :: rest)) = [job] := by
  have builds := page.builds
  rw [lists] at builds
  obtain ⟨raw, raws, built, -, listed⟩ := List.forall₂_cons_right_iff.mp builds
  have yields := yieldJobs_zero 0 raws built
  rw [← listed] at yields
  obtain ⟨events, shows, run⟩ := fetchPages_ends ordering filters token rest answers yields rfl
  have yielded := shows.yielded ⟨[], .stops⟩
  rw [List.append_nil] at yielded
  rw [run, yielded]
  rfl

theorem fetchPages_zero_iff (paged : Paged pages) (serves : List.Forall₂ Answers rounds pages) :
    Exact pages (some 0)
      (fetchPages readers config workspace (some 0) (payload config ordering filters) .null 0 rounds) ↔
      ∃ page, pages = [page] ∧ page.jobs = [] := by
  obtain ⟨page, others, rfl⟩ := paged.exists_cons
  obtain ⟨round, rest, answers, served, rfl⟩ := List.forall₂_cons_right_iff.mp serves
  cases lists : page.jobs with
  | cons job jobs =>
      constructor
      · intro exact
        have yielded := exact.yielded
        rw [fetchPages_zero_job answers lists] at yielded
        cases yielded
      · rintro ⟨other, same, empty⟩
        cases same
        rw [lists] at empty
        cases empty
  | nil =>
      have yields : yieldJobs readers config workspace (some 0) 0 page.raws = (page.jobs, .ok 0) := by
        have all := yieldJobs_all (some 0) 0 page.builds fun _ _ => .inr lists
        rwa [congrArg List.length lists] at all
      cases paged with
      | last ends =>
          obtain ⟨events, shows, run⟩ := fetchPages_ends ordering filters .null rest answers yields
            (nextPage_last ends)
          refine iff_of_true ?_ ⟨page, rfl, lists⟩
          rw [run]
          apply exact_of_continues (Continues.of_page shows _)
          rw [lists]
          rfl
      | more carries paged =>
          obtain ⟨events, shows, run⟩ := fetchPages_continues ordering filters .null rest answers yields
            (nextPage_more carries)
          constructor
          · intro exact
            rw [run] at exact
            have needed := exact.needed 1 Nat.one_pos
            rw [shows.requested, List.length_cons] at needed
            have negative := needed (Nat.succ_lt_succ (fetchPages_requests paged served (some 0))) 0 rfl
            exact absurd negative (Nat.not_lt_zero _)
          · rintro ⟨other, same, -⟩
            cases same
            cases paged

end

theorem listJobs_exact_iff (readers : Readers DateTime Number) (config : Config) (workspace : String)
    (named : config.workspaceName = some workspace) (withStatus : Option (List Workforce.Status))
    (ordering : Ordering) (extraFilters : Option (List Json)) (maxJobs : Option Nat)
    (pages : List (Page readers config workspace)) (paged : Paged pages) (rounds : List Round)
    (serves : List.Forall₂ Answers rounds pages) :
    Exact pages maxJobs
        (listJobs readers config withStatus ordering (maxJobs.map Int.ofNat) extraFilters rounds) ↔
      maxJobs ≠ some 0 ∨ ∃ page, pages = [page] ∧ page.jobs = [] := by
  rw [listJobs, named]
  dsimp only
  by_cases zero : maxJobs = some 0
  · subst zero
    rw [show (some 0 : Option Nat).map Int.ofNat = some 0 from rfl, fetchPages_zero_iff paged serves]
    simp
  · have below : ∀ limit ∈ maxJobs, 0 < limit := by
      rintro limit rfl
      exact Nat.pos_of_ne_zero fun none => zero (congrArg some none)
    exact iff_of_true (exact_of_continues (fetchPages_exact paged serves below)) (.inl zero)

/-! ## Two pages -/

def plainReaders : Readers String Rat where
  parseUtc
    | .str time => time.toString?
    | _ => none
  number
    | .int n => some n
    | .float (.finite x) => some x.value
    | _ => none

def sampleConfig : Config := ⟨"westeurope", "qm9", "sub", "rg", some "ws"⟩

def sampleJob (name : String) : Json :=
  .obj [("properties", .obj [("experimentId", .str "e1"), ("compute", .obj [("target", .str "c1")])]),
    ("annotations", .obj [("status", .str "Running"), ("displayName", .str name)])]

def sampleAmlJob (name : String) : AmlJob String Rat :=
  ⟨⟨"e1", "sub", "rg", "ws"⟩, .running, name, none, "c1", none, []⟩

def firstPage : Page plainReaders sampleConfig "ws" where
  data := [("value", .arr [sampleJob "w1"]), ("continuationToken", .str "more")]
  raws := [sampleJob "w1"]
  jobs := [sampleAmlJob "w1"]
  lists := rfl
  builds := .cons rfl .nil

def lastPage : Page plainReaders sampleConfig "ws" where
  data := [("value", .arr [sampleJob "w2", sampleJob "w3"])]
  raws := [sampleJob "w2", sampleJob "w3"]
  jobs := [sampleAmlJob "w2", sampleAmlJob "w3"]
  lists := rfl
  builds := .cons rfl (.cons rfl .nil)

def sampleRound (page : Page plainReaders sampleConfig "ws") : Round where
  token := .ok "secret"
  request _ := .response ⟨200, {}, text (.obj page.data)⟩
  jitter _ := default
  clock _ := default

theorem sampleRound_answers {page : Page plainReaders sampleConfig "ws"}
    (wellFormed : WellFormed (.obj page.data)) : Answers (sampleRound page) page where
  token := ⟨"secret", rfl⟩
  response := ⟨{}, text (.obj page.data), loads_text wellFormed, rfl⟩

theorem firstPage_answers : Answers (sampleRound firstPage) firstPage :=
  sampleRound_answers (by simp [firstPage, sampleJob, WellFormed, MembersWellFormed, ItemsWellFormed])

theorem lastPage_answers : Answers (sampleRound lastPage) lastPage :=
  sampleRound_answers (by simp [lastPage, sampleJob, WellFormed, MembersWellFormed, ItemsWellFormed])

/-- The limit is reached within the second page. -/
theorem listJobs_exact_sample : Exact [firstPage, lastPage] (some 2)
    (listJobs plainReaders sampleConfig none .asc (some 2) none
      [sampleRound firstPage, sampleRound lastPage]) :=
  (listJobs_exact_iff plainReaders sampleConfig "ws" rfl none .asc none (some 2) [firstPage, lastPage]
    (.more nofun (.last rfl)) [sampleRound firstPage, sampleRound lastPage]
    (.cons firstPage_answers (.cons lastPage_answers .nil))).mpr (.inl (by decide))

/-- With a limit of zero a job is yielded. -/
theorem listJobs_not_exact :
    Paged [lastPage] ∧ List.Forall₂ Answers [sampleRound lastPage] [lastPage] ∧
      ¬ Exact [lastPage] (some 0)
        (listJobs plainReaders sampleConfig none .asc (some 0) none [sampleRound lastPage]) := by
  refine ⟨.last rfl, .cons lastPage_answers .nil, fun exact => ?_⟩
  have yielded := exact.yielded
  have job : Run.yielded (listJobs plainReaders sampleConfig none .asc (some 0) none
      [sampleRound lastPage]) = [sampleAmlJob "w2"] := by
    have named : sampleConfig.workspaceName = some "ws" := rfl
    rw [listJobs, named]
    exact fetchPages_zero_job lastPage_answers rfl
  rw [job] at yielded
  cases yielded

end JobQ.ListJobs
