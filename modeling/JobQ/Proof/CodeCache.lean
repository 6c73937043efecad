import JobQ.Model.CodeCache

/-!
# What a cached path holds

The cache belongs to the class and the temporary directory to the instance, so that a cached path can
be gone. Two archives of one name share a directory. In a run that keeps off both, whatever the cache
names in a directory that is alive is the archive of its URL.
-/

namespace JobQ.CodeCache

open CodeCache.State

variable {Content : Type*} {isWord : Char → Bool} {archives : Url → Option (Directory Content)}

def Same (d archive : Directory Content) : Prop := ∀ file, d.lookup file = archive.lookup file

/-- The path exists when it is returned, and holds what the archive at the URL unpacks to. -/
def Event.Right (archives : Url → Option (Directory Content)) : Event Content → Prop
  | returned url _ found => ∃ d archive, found = some d ∧ archives url = some archive ∧ Same d archive
  | raised _ => True

/-- A URL that is in the cache was unpacked in a context that has not been left. One that is
downloaded has a name under which this context has unpacked nothing else. -/
def CallGuard (isWord : Char → Bool) (archives : Url → Option (Directory Content)) (s : State Content)
    (t : Nat) (url : Url) (reachable : Bool) : Prop :=
  match s.cache.lookup url with
  | some path => s.isAlive path.tempdir = true
  | none => ∀ name other archive unpacked, filename isWord url = some name →
      (archives url).filter (fun _ => reachable) = some archive → s.isAlive t = true →
      s.cache.lookup other = some ⟨t, name⟩ → archives other = some unpacked → Same archive unpacked

def Guard (isWord : Char → Bool) (archives : Url → Option (Directory Content)) (s : State Content) :
    Action → Prop
  | .gets i url token reachable => ∀ t, s.instances[i]? = some (some t) →
      CallGuard isWord archives s t (requestUrl url token) reachable
  | _ => True

structure Sound (archives : Url → Option (Directory Content)) (s : State Content) : Prop where
  range : ∀ url path, s.cache.lookup url = some path → path.tempdir < s.tempdirs.length
  cached : ∀ url path, s.cache.lookup url = some path → s.isAlive path.tempdir = true →
    ∃ d archive, s.directory path = some d ∧ archives url = some archive ∧ Same d archive
  unpacked : ∀ path d, s.directory path = some d → ∃ url archive, s.cache.lookup url = some path ∧
    archives url = some archive ∧ Same d archive

/-! ## What the steps do to the directories -/

section

variable {s : State Content} {t u : Nat} {path other : Path} {archive : Directory Content}

theorem directory_cleanup : (s.cleanup t).directory path =
    if t = path.tempdir then none else s.directory path := by
  rw [directory, directory, cleanup, List.getElem?_modify]
  cases s.tempdirs[path.tempdir]? with
  | none => exact (ite_self none).symm
  | some d => by_cases same : t = path.tempdir <;> simp [same, Tempdir.cleanup]

theorem isAlive_of_cleanup (alive : (s.cleanup t).isAlive u = true) : t ≠ u ∧ s.isAlive u = true := by
  rw [isAlive, cleanup, List.getElem?_modify] at alive
  rw [isAlive]
  cases found : s.tempdirs[u]? with
  | none =>
      rw [found] at alive
      cases alive
  | some d =>
      rw [found] at alive
      by_cases same : t = u
      · simp [same, Tempdir.cleanup] at alive
      · exact ⟨same, by simpa [same] using alive⟩

theorem range_of_alive (alive : s.isAlive t = true) : t < s.tempdirs.length := by
  by_contra outside
  rw [isAlive, List.getElem?_eq_none (Nat.le_of_not_lt outside)] at alive
  cases alive

theorem directory_append (instances : List (Option Nat)) (cache : AList fun _ : Url => Path) :
    State.directory ⟨s.tempdirs ++ [⟨true, ∅⟩], instances, cache⟩ path = s.directory path := by
  rw [directory, directory]
  dsimp only
  by_cases old : path.tempdir < s.tempdirs.length
  · rw [List.getElem?_append_left old]
  · rw [List.getElem?_append_right (Nat.le_of_not_lt old),
      List.getElem?_eq_none (Nat.le_of_not_lt old)]
    cases path.tempdir - s.tempdirs.length <;> rfl

theorem isAlive_append (instances : List (Option Nat)) (cache : AList fun _ : Url => Path)
    (old : t < s.tempdirs.length) :
    State.isAlive ⟨s.tempdirs ++ [⟨true, ∅⟩], instances, cache⟩ t = s.isAlive t := by
  rw [isAlive, isAlive]
  dsimp only
  rw [List.getElem?_append_left old]

theorem isAlive_unpack (path : Path) (archive : Directory Content) :
    (s.unpack path archive).isAlive t = s.isAlive t := by
  rw [isAlive, isAlive, unpack, List.getElem?_modify]
  cases s.tempdirs[t]? with
  | none => rfl
  | some d => by_cases same : path.tempdir = t <;> simp [same]

theorem directory_unpack_other (different : other ≠ path) :
    (s.unpack path archive).directory other = s.directory other := by
  rw [directory, directory, unpack, List.getElem?_modify]
  cases s.tempdirs[other.tempdir]? with
  | none => rfl
  | some d =>
      by_cases same : path.tempdir = other.tempdir
      · have names : other.name ≠ path.name := fun names => different (by
          cases other
          cases path
          simp_all)
        simp [same, AList.lookup_insert_ne names]
      · simp [same]

theorem directory_unpack (archive : Directory Content) (alive : s.isAlive path.tempdir = true) :
    (s.unpack path archive).directory path = some (Files.writeAll ((s.directory path).getD ∅)
      (archive.entries.map fun f => (f.1, f.2))) := by
  rw [isAlive] at alive
  rw [directory, unpack, List.getElem?_modify]
  cases found : s.tempdirs[path.tempdir]? with
  | none =>
      rw [found] at alive
      cases alive
  | some d => simp

end

/-! ## The invariant -/

theorem sound_cleanup {s : State Content} {t : Nat} (sound : Sound archives s) :
    Sound archives (s.cleanup t) := by
  constructor
  · intro url path hit
    exact Nat.lt_of_lt_of_eq (sound.range url path hit) (List.length_modify _ _ _).symm
  · intro url path hit alive
    obtain ⟨other, before⟩ := isAlive_of_cleanup alive
    rw [directory_cleanup, if_neg other]
    exact sound.cached url path hit before
  · intro path d there
    rw [directory_cleanup] at there
    split at there
    · cases there
    · exact sound.unpacked path d there

theorem sound_enter {s : State Content} {i : Nat} {earlier : Option Nat} (sound : Sound archives s) :
    Sound archives (s.enter i earlier) := by
  have appended {s : State Content} (sound : Sound archives s) (instances : List (Option Nat)) :
      Sound archives ⟨s.tempdirs ++ [⟨true, ∅⟩], instances, s.cache⟩ := by
    constructor
    · intro url path hit
      exact Nat.lt_trans (sound.range url path hit) (by simp)
    · intro url path hit alive
      rw [isAlive_append _ _ (sound.range url path hit)] at alive
      rw [directory_append]
      exact sound.cached url path hit alive
    · intro path d there
      rw [directory_append] at there
      exact sound.unpacked path d there
  cases earlier with
  | none => exact appended sound _
  | some t => exact appended (sound_cleanup sound) _

/-- The same archive once more, or the first one of the name. -/
theorem same_unpack {d archive : Directory Content} (earlier : d = ∅ ∨ Same d archive) :
    Same (Files.writeAll d (archive.entries.map fun f => (f.1, f.2))) archive := by
  intro file
  rw [Files.lookup_writeAll_entries]
  rcases earlier with rfl | same
  · exact Option.or_none
  · rw [same file, Option.or_self]

theorem sound_unpack {s : State Content} {url : Url} (path : Path) {archive : Directory Content}
    (sound : Sound archives s) (alive : s.isAlive path.tempdir = true)
    (fresh : s.cache.lookup url = none) (stored : archives url = some archive)
    (agrees : ∀ other unpacked, s.cache.lookup other = some path → archives other = some unpacked →
      Same archive unpacked) :
    Sound archives { s.unpack path archive with cache := s.cache.insert url path } ∧
      ∃ d, (s.unpack path archive).directory path = some d ∧ Same d archive := by
  have same : Same (Files.writeAll ((s.directory path).getD ∅)
      (archive.entries.map fun f => (f.1, f.2))) archive := by
    apply same_unpack
    cases there : s.directory path with
    | none => exact .inl rfl
    | some d =>
        obtain ⟨other, unpacked, hit, archived, holds⟩ := sound.unpacked path d there
        have agreed := agrees other unpacked hit archived
        exact .inr fun file => (holds file).trans (agreed file).symm
  have unpacked := directory_unpack archive alive
  refine ⟨⟨?_, ?_, ?_⟩, _, unpacked, same⟩
  · intro other place hit
    rw [unpack, List.length_modify]
    by_cases new : other = url
    · rw [new, AList.lookup_insert] at hit
      cases hit
      exact range_of_alive alive
    · rw [AList.lookup_insert_ne new] at hit
      exact sound.range other place hit
  · intro other place hit aliveAfter
    by_cases new : other = url
    · rw [new, AList.lookup_insert] at hit
      cases hit
      exact ⟨_, archive, unpacked, new ▸ stored, same⟩
    · rw [AList.lookup_insert_ne new] at hit
      obtain ⟨d, before, there, archived, holds⟩ := sound.cached other place hit (by
        rw [← isAlive_unpack path archive]
        exact aliveAfter)
      by_cases here : place = path
      · subst here
        exact ⟨_, before, unpacked, archived, fun file =>
          (same file).trans (agrees other before hit archived file)⟩
      · exact ⟨d, before, (directory_unpack_other here).trans there, archived, holds⟩
  · intro place d there
    by_cases here : place = path
    · subst here
      cases unpacked.symm.trans there
      exact ⟨url, archive, AList.lookup_insert _, stored, same⟩
    · obtain ⟨other, before, hit, archived, holds⟩ :=
        sound.unpacked place d ((directory_unpack_other here).symm.trans there)
      have old : other ≠ url := by
        rintro rfl
        cases fresh.symm.trans hit
      exact ⟨other, before, (AList.lookup_insert_ne old).trans hit, archived, holds⟩

/-! ## The run -/

theorem getLocalCodeDir_sound {s t : State Content} {u : Nat} {url : Url} {reachable : Bool}
    {event : Event Content} (sound : Sound archives s) (meets : CallGuard isWord archives s u url reachable)
    (action : getLocalCodeDir isWord archives s u url reachable = (t, event)) :
    Sound archives t ∧ event.Right archives := by
  rw [getLocalCodeDir] at action
  split at action
  · cases action
    exact ⟨sound, trivial⟩
  · rename_i name named
    rw [CallGuard] at meets
    split at action
    · rename_i path hit
      cases action
      rw [hit] at meets
      exact ⟨sound, sound.cached url path hit meets⟩
    · rename_i fresh
      rw [fresh] at meets
      split at action
      · cases action
        exact ⟨sound, trivial⟩
      · rename_i archive answered
        have stored := (Option.filter_eq_some_iff.mp answered).1
        split at action
        · rename_i alive
          cases action
          obtain ⟨after, d, there, same⟩ := sound_unpack ⟨u, name⟩ sound alive fresh stored
            fun other unpacked => meets name other archive unpacked named answered alive
          exact ⟨after, d, archive, there, stored, same⟩
        · cases action
          exact ⟨sound, trivial⟩

theorem step_sound {s t : State Content} {a : Action} {new : List (Event Content)}
    (sound : Sound archives s) (meets : Guard isWord archives s a)
    (action : (machine isWord archives).step s a = some (t, new)) :
    Sound archives t ∧ ∀ event ∈ new, event.Right archives := by
  cases a with
  | creates =>
      cases action
      exact ⟨⟨sound.range, sound.cached, sound.unpacked⟩, by simp⟩
  | enters i =>
      obtain ⟨earlier, found, same⟩ := Option.map_eq_some_iff.mp action
      cases same
      exact ⟨sound_enter sound, by simp⟩
  | leaves i =>
      obtain ⟨earlier, found, same⟩ := Option.map_eq_some_iff.mp action
      cases earlier <;> cases same
      · exact ⟨sound, by simp⟩
      · exact ⟨sound_cleanup sound, by simp⟩
  | gets i url token reachable =>
      obtain ⟨earlier, found, same⟩ := Option.map_eq_some_iff.mp action
      cases earlier with
      | none =>
          cases same
          exact ⟨sound, by simp [Event.Right]⟩
      | some u =>
          cases same
          obtain ⟨after, right⟩ := getLocalCodeDir_sound sound (meets u found) rfl
          exact ⟨after, fun event member => List.mem_singleton.mp member ▸ right⟩

/-- In a run that keeps off both, every path is alive and right when it is returned. -/
theorem returned_paths_right {s : State Content} {events : List (Event Content)}
    (run : Mealy.Run (machine isWord archives) (Guard isWord archives) ({}, []) events s) :
    ∀ event ∈ events, event.Right archives := by
  have invariant := run.invariant
    (P := fun events s => Sound archives s ∧ ∀ event ∈ events, event.Right archives)
    ⟨⟨by rintro _ _ ⟨⟩, by rintro _ _ ⟨⟩, by rintro _ _ ⟨⟩⟩, by simp⟩
    fun events s a t new ⟨sound, right⟩ meets action => by
      obtain ⟨soundAfter, rightNew⟩ := step_sound sound meets action
      exact ⟨soundAfter, fun event member =>
        (List.mem_append.mp member).elim (right event) (rightNew event)⟩
  exact invariant.2

def wordCharacter (c : Char) : Bool := c.isAlphanum || c == '_'

def codeUrl : Url := "https://account.blob.core.windows.net/code/project.zip".toList

def oneArchive (url : Url) : Option (Directory String) :=
  if url = codeUrl then some (AList.singleton "main.py".toList "print()") else none

def fetched : Event String :=
  .returned codeUrl ⟨0, "project".toList⟩ (some (AList.singleton "main.py".toList "print()"))

/-- The second processor gets the path from the cache while the first one's context is open. -/
theorem fetches_right : ∃ s, Mealy.Run (machine wordCharacter oneArchive)
    (Guard wordCharacter oneArchive) ({}, []) [fetched, fetched] s ∧
      ∀ event ∈ [fetched, fetched], event.Right oneArchive := by
  have run : Mealy.Run (machine wordCharacter oneArchive) (Guard wordCharacter oneArchive) ({}, [])
      [fetched, fetched] _ :=
    .head (a := .creates) (by exact trivial) rfl (.head (a := .creates) (by exact trivial) rfl
      (.head (a := .enters 0) (by exact trivial) rfl (.head (a := .enters 1) (by exact trivial) rfl
        (.head (a := .gets 0 codeUrl [] true) (by
          rintro t ⟨⟩ name other archive unpacked named answered alive ⟨⟩) rfl
          (.head (a := .gets 1 codeUrl [] true) (by
            rintro t ⟨⟩
            exact rfl) rfl .refl)))))
  exact ⟨_, run, returned_paths_right run⟩

/-- The processor of a second job asks for the code of the first one, whose context has ended. -/
theorem left_context_dead : ¬ ∀ events s, Mealy.Run (machine wordCharacter oneArchive) Mealy.always
    ({}, []) events s → ∀ event ∈ events, event.Right oneArchive := by
  intro claim
  have steps : Mealy.exec (machine wordCharacter oneArchive) ({}, [])
      [.creates, .creates, .enters 0, .gets 0 codeUrl [] true, .leaves 0, .enters 1,
        .gets 1 codeUrl [] true] = some (_, _) := rfl
  obtain ⟨d, archive, found, _⟩ :=
    claim _ _ (.of_exec (by simp) steps) _ (List.mem_cons_of_mem _ List.mem_cons_self)
  cases found

end JobQ.CodeCache
