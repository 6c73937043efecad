import JobQ.Model.SyncPass
import JobQ.Proof.Syncer.Include

/-!
# What a copy changes

A copy writes one file. Otherwise it only makes directories on the way and sets the times of those
that get a new name.
-/

namespace JobQ.SyncFilter.Path

variable {p q d : Path}

theorem full_injective (same : p.full = q.full) : p = q := by
  obtain ⟨dirs, name⟩ := p
  obtain ⟨rfl, named⟩ := List.append_inj' same rfl
  cases named
  rfl

theorem mem_ancestorsFrom {before rest : List (List Char)} :
    d ∈ ancestorsFrom before rest ↔ before <+: d.dirs ∧ d.full <+: before ++ rest := by
  induction rest generalizing before with
  | nil =>
      rw [List.append_nil]
      refine iff_of_false List.not_mem_nil ?_
      rintro ⟨within, short⟩
      have := within.length_le.trans_lt (by simp [full] : d.dirs.length < d.full.length)
      exact absurd short.length_le (Nat.not_le_of_lt this)
  | cons name rest ih =>
      rw [ancestorsFrom, List.mem_cons, ih, List.append_assoc, List.singleton_append]
      constructor
      · rintro (rfl | ⟨within, leads⟩)
        · exact ⟨List.prefix_rfl, by simp [full]⟩
        · exact ⟨(List.prefix_append before [name]).trans within, leads⟩
      · rintro ⟨within, leads⟩
        have below : before ++ [name] <+: before ++ name :: rest := by simp
        exact (LeadsTo.cases (p := ⟨before ++ name :: rest, name⟩) leads below within).imp_right
          fun deeper => ⟨deeper, leads⟩

theorem mem_ancestors : d ∈ p.ancestors ↔ d.LeadsTo p := by
  rw [ancestors, mem_ancestorsFrom]
  exact and_iff_right List.nil_prefix

theorem parent_eq_some : p.parent = some d ↔ p.dirs = d.full := by
  rw [parent, Option.map_eq_some_iff, full]
  constructor
  · rintro ⟨name, last, rfl⟩
    exact (List.dropLast_append_getLast? name last).symm
  · intro same
    exact ⟨d.name, by simp [same], by simp [same]⟩

theorem parent_child {name : List Char} : (p.child name).parent = some p := parent_eq_some.mpr rfl

theorem leadsTo_child {name : List Char} : d.LeadsTo (p.child name) ↔ d = p ∨ d.LeadsTo p := by
  constructor
  · intro leads
    rcases List.prefix_concat_iff.mp leads with same | above
    · exact .inl (full_injective same)
    · exact .inr above
  · rintro (rfl | leads)
    · exact List.prefix_rfl
    · exact List.IsPrefix.trans leads (List.prefix_append _ _)

theorem LeadsTo.trans (first : d.LeadsTo p) (second : p.LeadsTo q) : d.LeadsTo q :=
  List.IsPrefix.trans (List.IsPrefix.trans first (List.prefix_append _ _)) second

theorem LeadsTo.irrefl (leads : p.LeadsTo p) : False := leads.not_self List.prefix_rfl

theorem leadsTo_of_parent (above : p.parent = some d) : d.LeadsTo p := by
  rw [LeadsTo, parent_eq_some.mp above]
  exact List.prefix_rfl

end JobQ.SyncFilter.Path

namespace JobQ.SyncPass

open SyncFilter (Path Filters)
open Syncer (Inode)

variable {Content : Type*} {clock : Path → Int} {nodes after : Nodes Content} {p q d x : Path}
  {f : Filters} {src : Inode Content}

theorem visitsDst_iff {preExisting : List Path} : visitsDst f preExisting p = true ↔
    visits f p = true ∧ p ∉ preExisting ∧ ∀ d : Path, d.LeadsTo p → d ∉ preExisting := by
  simp [visitsDst, Path.mem_ancestors, and_assoc]

/-! ## The times of directories -/

/-- The entry is as before, or a directory whose time was set, and which may be a new one. -/
def Kept (clock : Path → Int) (nodes after : Nodes Content) (x : Path) : Prop :=
  after.lookup x = nodes.lookup x ∨
    (nodes.lookup x = none ∨ ∃ mtime, nodes.lookup x = some (.dir mtime)) ∧
      after.lookup x = some (.dir (clock x))

theorem Kept.trans {middle : Nodes Content} (first : Kept clock nodes middle x)
    (second : Kept clock middle after x) : Kept clock nodes after x := by
  rcases second with same | ⟨before, set⟩
  · rw [Kept, same]
    exact first
  · refine .inr ⟨?_, set⟩
    rcases first with same | ⟨earlier, _⟩
    · rw [← same]
      exact before
    · exact earlier

theorem lookup_touch (nodes : Nodes Content) (d : Path) :
    (∃ mtime, nodes.lookup d = some (.dir mtime)) ∧
        (touch clock nodes d).lookup d = some (.dir (clock d)) ∨
      (touch clock nodes d).lookup d = nodes.lookup d := by
  rw [touch]
  split
  · rename_i mtime there
    exact .inl ⟨⟨mtime, there⟩, AList.lookup_insert nodes⟩
  · exact .inr rfl

theorem lookup_touch_ne (other : x ≠ d) : (touch clock nodes d).lookup x = nodes.lookup x := by
  rw [touch]
  split
  · exact AList.lookup_insert_ne other
  · rfl

theorem lookup_touchParent_ne (other : p.parent ≠ some x) :
    (touchParent clock nodes p).lookup x = nodes.lookup x := by
  rw [touchParent]
  split
  · rename_i d above
    exact lookup_touch_ne fun same => other (same ▸ above)
  · rfl

theorem kept_touchParent : Kept clock nodes (touchParent clock nodes p) x := by
  by_cases above : p.parent = some x
  · rw [touchParent, above]
    rcases lookup_touch nodes x with ⟨there, set⟩ | same
    · exact .inr ⟨.inr there, set⟩
    · exact .inl same
  · exact .inl (lookup_touchParent_ne above)

theorem lookup_create {node : Node Content} : (create clock nodes p node).lookup p = some node :=
  AList.lookup_insert _

theorem kept_create {node : Node Content} (other : x ≠ p) :
    Kept clock nodes (create clock nodes p node) x := by
  rw [Kept, create, AList.lookup_insert_ne other]
  exact kept_touchParent

theorem lookup_create_ne {node : Node Content} (other : x ≠ p) (above : p.parent ≠ some x) :
    (create clock nodes p node).lookup x = nodes.lookup x := by
  rw [create, AList.lookup_insert_ne other, lookup_touchParent_ne above]

theorem Kept.file_iff (kept : Kept clock nodes after x) :
    after.lookup x = some (.file src) ↔ nodes.lookup x = some (.file src) := by
  rcases kept with same | ⟨none | ⟨mtime, there⟩, set⟩
  · rw [same]
  · simp [none, set]
  · simp [there, set]

theorem Kept.dir {mtime : Int} (kept : Kept clock nodes after x)
    (there : nodes.lookup x = some (.dir mtime)) : ∃ mtime, after.lookup x = some (.dir mtime) := by
  rcases kept with same | ⟨_, set⟩
  · exact ⟨mtime, same.trans there⟩
  · exact ⟨_, set⟩

/-! ## The directories on the way -/

section

variable {ds : List Path}

theorem kept_makedirs (made : makedirs clock nodes ds = some after) : Kept clock nodes after x := by
  induction ds generalizing nodes with
  | nil =>
      cases made
      exact .inl rfl
  | cons d rest ih =>
      rw [makedirs] at made
      split at made
      · rename_i none
        by_cases new : x = d
        · subst new
          have first : Kept clock nodes (create clock nodes x (.dir (clock x))) x :=
            .inr ⟨.inl none, lookup_create⟩
          exact first.trans (ih made)
        · exact (kept_create new).trans (ih made)
      · exact ih made
      · cases made

theorem lookup_makedirs_ne (made : makedirs clock nodes ds = some after)
    (apart : ∀ d ∈ ds, x ≠ d ∧ d.parent ≠ some x) : after.lookup x = nodes.lookup x := by
  induction ds generalizing nodes with
  | nil =>
      cases made
      rfl
  | cons d rest ih =>
      obtain ⟨⟨other, above⟩, later⟩ := List.forall_mem_cons.mp apart
      rw [makedirs] at made
      split at made
      · exact (ih made later).trans (lookup_create_ne other above)
      · exact ih made later
      · cases made

theorem dirs_of_makedirs (made : makedirs clock nodes ds = some after) :
    ∀ d ∈ ds, ∃ mtime, after.lookup d = some (.dir mtime) := by
  induction ds generalizing nodes with
  | nil => simp
  | cons d rest ih =>
      rw [makedirs] at made
      split at made
      · exact List.forall_mem_cons.mpr ⟨(kept_makedirs made).dir lookup_create, ih made⟩
      · rename_i there
        exact List.forall_mem_cons.mpr ⟨(kept_makedirs made).dir there, ih made⟩
      · cases made

theorem makedirs_some (clock : Path → Int)
    (free : ∀ d ∈ ds, ∀ src, nodes.lookup d ≠ some (.file src)) :
    ∃ after, makedirs clock nodes ds = some after := by
  induction ds generalizing nodes with
  | nil => exact ⟨nodes, rfl⟩
  | cons d rest ih =>
      obtain ⟨first, later⟩ := List.forall_mem_cons.mp free
      rw [makedirs]
      split
      · apply ih
        intro e member src found
        by_cases new : e = d
        · subst new
          cases lookup_create.symm.trans found
        · exact later e member src ((kept_create new).file_iff.mp found)
      · exact ih later
      · rename_i src found
        exact absurd found (first src)

end

theorem lookup_makedirs_ancestors (made : makedirs clock nodes p.ancestors = some after)
    (beside : ¬ x.LeadsTo p) : after.lookup x = nodes.lookup x := by
  apply lookup_makedirs_ne made
  intro d member
  have leads := Path.mem_ancestors.mp member
  constructor
  · rintro rfl
    exact beside leads
  · intro above
    exact beside ((Path.leadsTo_of_parent above).trans leads)

/-! ## One copy -/

/-- Where the copy is written. -/
def target (nodes : Nodes Content) (p : Path) : Path :=
  match nodes.lookup p with
  | some (.dir _) => p.child p.name
  | _ => p

theorem write_spec (written : write clock nodes p src = some after) :
    after.lookup p = some (.file ⟨src.content, src.mtime, clock p⟩) ∧
      (∀ x, x ≠ p → Kept clock nodes after x) ∧
        ∀ x, x ≠ p → p.parent ≠ some x → after.lookup x = nodes.lookup x := by
  rw [write] at written
  split at written <;> cases written
  · exact ⟨lookup_create, fun x other => kept_create other, fun x other => lookup_create_ne other⟩
  · exact ⟨AList.lookup_insert _, fun x other => .inl (AList.lookup_insert_ne other),
      fun x other _ => AList.lookup_insert_ne other⟩

theorem copy2_eq : copy2 clock nodes p src = write clock nodes (target nodes p) src := by
  cases there : nodes.lookup p with
  | none => simp only [copy2, target, there]
  | some node => cases node <;> simp only [copy2, target, there]

theorem target_of_lookup_eq (same : after.lookup p = nodes.lookup p) : target after p = target nodes p := by
  rw [target, target, same]

theorem parent_target (above : (target nodes p).parent = some x) :
    x.LeadsTo p ∨ x = p ∧ ∃ mtime, nodes.lookup p = some (.dir mtime) := by
  rw [target] at above
  split at above
  · rename_i mtime there
    rw [Path.parent_child] at above
    cases above
    exact .inr ⟨rfl, mtime, there⟩
  · exact .inl (Path.leadsTo_of_parent above)

theorem not_leadsTo_self : ¬ p.LeadsTo p := fun leads => leads.irrefl

theorem not_target_leadsTo : ¬ (target nodes p).LeadsTo p := by
  intro leads
  rw [target] at leads
  split at leads
  · exact ((Path.leadsTo_child.mpr (.inl rfl)).trans leads).irrefl
  · exact leads.irrefl

theorem copy_spec (copied : copy clock nodes p src = some after) :
    after.lookup (target nodes p) =
        some (.file ⟨src.content, src.mtime, clock (target nodes p)⟩) ∧
      (∀ x, x ≠ target nodes p → Kept clock nodes after x) ∧
        ∀ x, x ≠ target nodes p → ¬ x.LeadsTo p →
          (x = p → ∀ mtime, nodes.lookup p ≠ some (.dir mtime)) → after.lookup x = nodes.lookup x := by
  obtain ⟨middle, made, written⟩ := Option.bind_eq_some_iff.mp copied
  have self : middle.lookup p = nodes.lookup p := lookup_makedirs_ancestors made not_leadsTo_self
  rw [copy2_eq, target_of_lookup_eq self] at written
  obtain ⟨file, kept, same⟩ := write_spec written
  refine ⟨file, fun x other => (kept_makedirs made).trans (kept x other), fun x other beside plain => ?_⟩
  rw [← lookup_makedirs_ancestors made beside]
  apply same x other
  intro above
  rcases parent_target above with leads | ⟨rfl, mtime, there⟩
  · exact beside leads
  · exact plain rfl mtime there

theorem target_file (plain : ∀ mtime, nodes.lookup p ≠ some (.dir mtime)) : target nodes p = p := by
  rw [target]
  split
  · rename_i mtime there
    exact absurd there (plain mtime)
  · rfl

theorem target_dir {mtime : Int} (there : nodes.lookup p = some (.dir mtime)) :
    target nodes p = p.child p.name := by
  simp only [target, there]

theorem child_ne (name : List Char) : p ≠ p.child name := by
  intro same
  have length := congrArg (fun q : Path => q.dirs.length) same
  simp [Path.child, Path.full] at length

/-- A directory in the place of the file gets a new time with a new name in it. -/
theorem copy_dir {mtime : Int} (there : nodes.lookup p = some (.dir mtime))
    (copied : copy clock nodes p src = some after) :
    nodes.lookup (p.child p.name) = none ∧ after.lookup p = some (.dir (clock p)) ∨
      (∃ inode, nodes.lookup (p.child p.name) = some (.file inode)) ∧
        after.lookup p = some (.dir mtime) := by
  obtain ⟨middle, made, written⟩ := Option.bind_eq_some_iff.mp copied
  have self : middle.lookup p = some (.dir mtime) :=
    (lookup_makedirs_ancestors made not_leadsTo_self).trans there
  have below : ¬ (p.child p.name).LeadsTo p := by
    rw [← target_dir there]
    exact not_target_leadsTo
  have child := lookup_makedirs_ancestors made below
  rw [copy2_eq, target_dir self, write, child] at written
  split at written <;> cases written
  · rename_i none
    refine .inl ⟨none, ?_⟩
    rw [create, AList.lookup_insert_ne (child_ne p.name), touchParent, Path.parent_child]
    dsimp only
    simp only [touch, self, AList.lookup_insert]
  · rename_i inode file
    refine .inr ⟨⟨inode, file⟩, ?_⟩
    rw [AList.lookup_insert_ne (child_ne p.name)]
    exact self

theorem copy_some (free : ∀ d : Path, d.LeadsTo p → ∀ src, nodes.lookup d ≠ some (.file src))
    (plain : ∀ mtime, nodes.lookup p ≠ some (.dir mtime)) :
    ∃ after, copy clock nodes p src = some after := by
  obtain ⟨middle, made⟩ := makedirs_some clock
    fun d member => free d (Path.mem_ancestors.mp member)
  have self := lookup_makedirs_ancestors made not_leadsTo_self
  rw [copy, made]
  change ∃ after, copy2 clock middle p src = some after
  rw [copy2_eq, target_of_lookup_eq self, target_file plain, write, self]
  split
  · exact ⟨_, rfl⟩
  · exact ⟨_, rfl⟩
  · rename_i mtime there
    exact absurd there (plain mtime)

theorem ancestors_dirs_of_copy (copied : copy clock nodes p src = some after) (leads : d.LeadsTo p) :
    ∃ mtime, after.lookup d = some (.dir mtime) := by
  obtain ⟨middle, made, written⟩ := Option.bind_eq_some_iff.mp copied
  obtain ⟨mtime, there⟩ := dirs_of_makedirs made d (Path.mem_ancestors.mpr leads)
  rw [copy2_eq] at written
  have other : d ≠ target middle p := fun same => not_target_leadsTo (same ▸ leads)
  exact ((write_spec written).2.1 d other).dir there

theorem target_not_dir (copied : copy clock nodes p src = some after) (mtime : Int) :
    nodes.lookup (target nodes p) ≠ some (.dir mtime) := by
  intro dir
  by_cases plain : ∀ mtime, nodes.lookup p ≠ some (.dir mtime)
  · rw [target_file plain] at dir
    exact plain mtime dir
  · push Not at plain
    obtain ⟨mtime, there⟩ := plain
    rw [target_dir there] at dir
    rcases copy_dir there copied with ⟨none, _⟩ | ⟨⟨inode, file⟩, _⟩
    · cases none.symm.trans dir
    · cases file.symm.trans dir

/-- An entry that a copy adds is under directories, too. -/
theorem closed_copy (closed : Closed nodes) (copied : copy clock nodes p src = some after) :
    Closed after := by
  obtain ⟨file, kept, same⟩ := copy_spec copied
  intro y there d above
  have leads := Path.mem_ancestors.mp above
  have old (before : y ∈ nodes) : ∃ mtime, after.lookup d = some (.dir mtime) := by
    obtain ⟨mtime, dir⟩ := closed y before d above
    have other : d ≠ target nodes p := fun here => target_not_dir copied mtime (here ▸ dir)
    exact (kept d other).dir dir
  by_cases onTheWay : y.LeadsTo p
  · exact ancestors_dirs_of_copy copied (leads.trans onTheWay)
  · by_cases plain : ∀ mtime, nodes.lookup p ≠ some (.dir mtime)
    · by_cases here : y = p
      · exact ancestors_dirs_of_copy copied (here ▸ leads)
      · rw [target_file plain] at same
        exact old ((Files.mem_congr (same y here onTheWay fun here' => absurd here' here)).mp there)
    · push Not at plain
      obtain ⟨mtime, dir⟩ := plain
      by_cases here : y = p.child p.name
      · rcases Path.leadsTo_child.mp (here ▸ leads) with rfl | leads
        · exact (kept d (by rw [target_dir dir]; exact child_ne _)).dir dir
        · exact ancestors_dirs_of_copy copied leads
      · by_cases self : y = p
        · exact old (self ▸ Files.mem_of_lookup dir)
        · have unchanged := same y (by rwa [target_dir dir]) onTheWay fun self' => absurd self' self
          exact old ((Files.mem_congr unchanged).mp there)

/-! ## Removals -/

theorem lookup_unlink : (unlink clock nodes p).lookup p = none := by
  have apart : p.parent ≠ some p := fun above => (Path.leadsTo_of_parent above).irrefl
  rw [unlink, lookup_touchParent_ne apart, AList.lookup_erase]

theorem lookup_unlink_ne (clock : Path → Int) (other : x ≠ p)
    (plain : p.parent = some x → ∀ mtime, nodes.lookup x ≠ some (.dir mtime)) :
    (unlink clock nodes p).lookup x = nodes.lookup x := by
  by_cases above : p.parent = some x
  · rw [unlink, touchParent, above]
    dsimp only
    rcases lookup_touch (nodes.erase p) x with ⟨⟨mtime, there⟩, _⟩ | same
    · rw [AList.lookup_erase_ne other] at there
      exact absurd there (plain above mtime)
    · rw [same, AList.lookup_erase_ne other]
  · rw [unlink, lookup_touchParent_ne above, AList.lookup_erase_ne other]

theorem lookup_unlink_parent {mtime : Int} (above : p.parent = some x)
    (there : nodes.lookup x = some (.dir mtime)) :
    (unlink clock nodes p).lookup x = some (.dir (clock x)) := by
  have other : x ≠ p := by
    rintro rfl
    exact (Path.leadsTo_of_parent above).irrefl
  have kept : (nodes.erase p).lookup x = some (.dir mtime) := (AList.lookup_erase_ne other).trans there
  rw [unlink, touchParent, above]
  simp only [touch, kept, AList.lookup_insert]

section

variable {removals : List Path}

theorem lookup_unlinkAll_plain (kept : x ∉ removals) (plain : ∀ mtime, nodes.lookup x ≠ some (.dir mtime)) :
    (removals.foldl (unlink clock) nodes).lookup x = nodes.lookup x := by
  induction removals generalizing nodes with
  | nil => rfl
  | cons p rest ih =>
      obtain ⟨other, later⟩ := List.ne_and_not_mem_of_not_mem_cons kept
      have same := lookup_unlink_ne clock other fun _ => plain
      rw [List.foldl_cons, ih later (by rwa [same]), same]

theorem lookup_unlinkAll_mem (removed : x ∈ removals) :
    (removals.foldl (unlink clock) nodes).lookup x = none := by
  induction removals generalizing nodes with
  | nil => cases removed
  | cons p rest ih =>
      rw [List.foldl_cons]
      by_cases again : x ∈ rest
      · exact ih again
      · rcases List.mem_cons.mp removed with rfl | later
        · rw [lookup_unlinkAll_plain again (by simp [lookup_unlink]), lookup_unlink]
        · exact absurd later again

theorem lookup_unlinkAll_dir (clock : Path → Int) {mtime : Int} (kept : x ∉ removals)
    (there : nodes.lookup x = some (.dir mtime)) :
    ((∃ p ∈ removals, p.parent = some x) ∧
        (removals.foldl (unlink clock) nodes).lookup x = some (.dir (clock x))) ∨
      (¬ (∃ p ∈ removals, p.parent = some x) ∧
        (removals.foldl (unlink clock) nodes).lookup x = some (.dir mtime)) := by
  induction removals generalizing nodes mtime with
  | nil => exact .inr ⟨by simp, there⟩
  | cons p rest ih =>
      obtain ⟨other, later⟩ := List.ne_and_not_mem_of_not_mem_cons kept
      rw [List.foldl_cons]
      by_cases above : p.parent = some x
      · rcases ih later (lookup_unlink_parent above there) with ⟨_, set⟩ | ⟨_, set⟩
        · exact .inl ⟨⟨p, List.mem_cons_self, above⟩, set⟩
        · exact .inl ⟨⟨p, List.mem_cons_self, above⟩, set⟩
      · have same : (unlink clock nodes p).lookup x = nodes.lookup x :=
          lookup_unlink_ne clock other fun yes => absurd yes above
        rcases ih later (same.trans there) with ⟨⟨q, member, parent⟩, set⟩ | ⟨none, set⟩
        · exact .inl ⟨⟨q, List.mem_cons_of_mem _ member, parent⟩, set⟩
        · refine .inr ⟨?_, set⟩
          rintro ⟨q, member, parent⟩
          rcases List.mem_cons.mp member with rfl | inRest
          · exact above parent
          · exact none ⟨q, inRest, parent⟩

theorem lookup_unlinkAll_file : (removals.foldl (unlink clock) nodes).lookup x = some (.file src) ↔
    nodes.lookup x = some (.file src) ∧ x ∉ removals := by
  by_cases removed : x ∈ removals
  · refine iff_of_false (fun found => ?_) fun both => both.2 removed
    cases (lookup_unlinkAll_mem removed).symm.trans found
  · rw [and_iff_left removed]
    by_cases plain : ∀ mtime, nodes.lookup x ≠ some (.dir mtime)
    · rw [lookup_unlinkAll_plain removed plain]
    · push Not at plain
      obtain ⟨mtime, dir⟩ := plain
      refine iff_of_false (fun found => ?_) fun found => ?_
      · rcases lookup_unlinkAll_dir clock removed dir with ⟨_, set⟩ | ⟨_, set⟩
        · cases set.symm.trans found
        · cases set.symm.trans found
      · cases dir.symm.trans found

end

/-! ## The source -/

theorem not_leadsTo_of_file {source : Tree Content} (file : source.nodes.lookup p = some (.file src))
    (there : q ∈ source.nodes) : ¬ p.LeadsTo q := by
  intro leads
  obtain ⟨mtime, dir⟩ := source.closed q there p (Path.mem_ancestors.mpr leads)
  cases file.symm.trans dir

theorem closed_singleton {node : Node Content} (top : p.dirs = []) :
    Closed (AList.singleton p node) := by
  intro q there d above
  rw [List.mem_singleton.mp there, Path.ancestors, top] at above
  cases above

/-! ## The phases of a pass -/

section

variable {source : Tree Content} {settings : Settings} {s : State Content}

theorem mem_files : x ∈ nodes.entries.filterMap filePath ↔
    ∃ inode, nodes.lookup x = some (.file inode) := by
  rw [List.mem_filterMap]
  constructor
  · rintro ⟨⟨y, node⟩, listed, isFile⟩
    cases node with
    | file inode =>
        cases isFile
        exact ⟨inode, AList.mem_lookup_iff.mpr listed⟩
    | dir mtime => cases isFile
  · rintro ⟨inode, file⟩
    exact ⟨⟨x, .file inode⟩, AList.mem_lookup_iff.mp file, rfl⟩

theorem mem_strays {preExisting : List Path} : x ∈ strays f preExisting source nodes ↔
    (∃ inode, nodes.lookup x = some (.file inode)) ∧ visitsDst f preExisting x = true ∧
      source.nodes.lookup x = none := by
  rw [strays, List.mem_filter, mem_files, Bool.and_eq_true, Option.isNone_iff_eq_none]

def State.known (s : State Content) : List Path := s.preExisting.getD (scanPreexisting s.dst)

theorem sync_known : (sync clock settings source s).state.known = s.known := by
  rw [sync]
  dsimp only
  split
  · rfl
  · split <;> rfl

theorem copyAll_completed (completed : (sync clock settings source s).raised = false) :
    (copyAll clock settings.filters source s.dst).raised = false := by
  by_contra raised
  rw [sync, if_pos (by simpa using raised)] at completed
  cases completed

theorem sync_removing (completed : (sync clock settings source s).raised = false)
    (removes : settings.removeIfNotInSource = true) :
    (sync clock settings source s).state.dst =
        (strays settings.filters s.known source (copyAll clock settings.filters source s.dst).dst).foldl
          (unlink clock) (copyAll clock settings.filters source s.dst).dst ∧
      (sync clock settings source s).removals =
        strays settings.filters s.known source (copyAll clock settings.filters source s.dst).dst := by
  have ok := copyAll_completed completed
  rw [sync, if_neg (by simp [ok]), if_pos removes]
  exact ⟨rfl, rfl⟩

theorem sync_keeping (completed : (sync clock settings source s).raised = false)
    (keeps : settings.removeIfNotInSource = false) :
    (sync clock settings source s).state.dst = (copyAll clock settings.filters source s.dst).dst ∧
      (sync clock settings source s).removals = [] := by
  have ok := copyAll_completed completed
  rw [sync, if_neg (by simp [ok]), if_neg (by simp [keeps])]
  exact ⟨rfl, rfl⟩

end

end JobQ.SyncPass
