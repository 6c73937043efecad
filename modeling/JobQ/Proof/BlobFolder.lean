import JobQ.Library.Fallible
import JobQ.Model.BlobFolder

/-!
# What a download restores

The upload walks the whole folder and the download lists one level. A sub-directory is listed as its
prefix, which is no blob, and the two also disagree about a blob directory that is not in the form
that `PurePosixPath` gives it.
-/

namespace JobQ.BlobFolder

open PurePosixPath

variable {Content : Type*}

/-- What stands before the relative path in the name of an uploaded blob. -/
def directory (path : PurePosixPath) : List Char := path.root ++ path.parts.flatMap (· ++ ['/'])

/-- No blob is in the directory, whether the upload spells its name or the download. -/
def EmptyBefore (container : Container Content) (blobDir : List Char) : Prop :=
  ∀ name ∈ container, ¬ directory (parse blobDir) <+: name ∧ ¬ nameStartsWith blobDir <+: name

/-- The download succeeds, and the target has the relative paths of the folder and their contents. -/
def Restores (folder : Folder Content) (container : Container Content) (blobDir : List Char) : Prop :=
  ∃ target, downloadFolder (uploadFromFolder folder blobDir container) blobDir = .ok target ∧
    ∀ path, target.lookup path = folder.files.lookup path

/-! ## The names of the blobs -/

section

variable {path : Path} {name base : Name}

theorem relpath_cons (name : Name) (filled : path ≠ []) :
    relpath (name :: path) = name ++ '/' :: relpath path := by
  rw [relpath, List.intercalate_cons_of_ne_nil filled, List.append_assoc]
  rfl

/-- A relative path begins with a letter of its first name. -/
theorem rootOf_relpath (filled : path ≠ []) (named : ∀ name ∈ path, IsName name) :
    rootOf (relpath path) = [] := by
  match path with
  | [] :: rest => exact absurd rfl (named [] List.mem_cons_self).1
  | (c :: letters) :: rest =>
    have letter : c ≠ '/' := fun same =>
      (named _ List.mem_cons_self).2.1 (same ▸ List.mem_cons_self)
    have first : ∃ later, relpath ((c :: letters) :: rest) = c :: later := by
      cases rest with
      | nil => exact ⟨letters, List.intercalate_singleton⟩
      | cons next others => exact ⟨_, relpath_cons _ (by simp)⟩
    obtain ⟨later, starts⟩ := first
    rw [rootOf, starts, List.takeWhile_cons_of_neg (by simpa using letter)]
    rfl

theorem parse_relpath (filled : path ≠ []) (named : ∀ name ∈ path, IsName name) :
    parse (relpath path) = ⟨[], path⟩ := by
  rw [parse, rootOf_relpath filled named, relpath,
    List.splitOn_intercalate '/' (fun name member => (named name member).2.1) filled]
  congr 1
  apply List.filter_eq_self.mpr
  intro name member
  obtain ⟨nonempty, _, dot, _⟩ := named name member
  simpa using ⟨nonempty, dot⟩

theorem intercalate_append (parts : List Name) (filled : path ≠ []) :
    relpath (parts ++ path) = parts.flatMap (· ++ ['/']) ++ relpath path := by
  induction parts with
  | nil => rfl
  | cons part rest ih =>
      rw [List.cons_append, relpath_cons part (by simp [filled]), ih, List.flatMap_cons]
      simp

theorem blobName_eq (blobDir : List Char) (filled : path ≠ [])
    (named : ∀ name ∈ path, IsName name) :
    blobName blobDir path = directory (parse blobDir) ++ relpath path := by
  rw [blobName, parse_relpath filled named, join, if_pos rfl, str, if_neg (by simp [filled]), directory,
    List.append_assoc, ← intercalate_append _ filled]
  rfl

theorem directory_ends (blobDir : List Char) :
    directory (parse blobDir) = [] ∨ ∃ u, directory (parse blobDir) = u ++ ['/'] := by
  rcases List.eq_nil_or_concat' (parse blobDir).parts with none | ⟨init, last, parts⟩
  · rw [directory, none, List.flatMap_nil, List.append_nil]
    change rootOf blobDir = [] ∨ ∃ u, rootOf blobDir = u ++ ['/']
    rw [rootOf]
    split
    · exact .inl rfl
    · exact .inr ⟨['/'], rfl⟩
    · exact .inr ⟨[], rfl⟩
  · refine .inr ⟨(parse blobDir).root ++ init.flatMap (· ++ ['/']) ++ last, ?_⟩
    simp [directory, parts]

theorem basename_append (before : List Char) (plain : '/' ∉ base) :
    basename (before ++ '/' :: base) = base := by
  rw [basename, Text.rsplit_append plain]

theorem basename_blob (blobDir : List Char) (plain : '/' ∉ base) :
    basename (directory (parse blobDir) ++ base) = base := by
  rcases directory_ends blobDir with empty | ⟨u, slash⟩
  · rw [empty, List.nil_append, basename, Text.rsplit_eq_none.mpr plain]
  · rw [slash, List.append_assoc]
    exact basename_append u plain

end

/-! ## The container after the upload -/

section

variable {folder : Folder Content} {container : Container Content} {blobDir : List Char}

theorem blobName_of_mem {path : Path} (member : path ∈ folder.files) :
    blobName blobDir path = directory (parse blobDir) ++ relpath path :=
  blobName_eq blobDir (folder.named path member).1 (folder.named path member).2

theorem blobName_injective {p q : Path} (first : p ∈ folder.files) (second : q ∈ folder.files)
    (same : blobName blobDir p = blobName blobDir q) : p = q := by
  rw [blobName_of_mem first, blobName_of_mem second] at same
  have parsed := congrArg parse (List.append_cancel_left same)
  rw [parse_relpath (folder.named p first).1 (folder.named p first).2,
    parse_relpath (folder.named q second).1 (folder.named q second).2] at parsed
  exact congrArg parts parsed

theorem mem_of_entry {file : Sigma fun _ : Path => Content} (member : file ∈ folder.files.entries) :
    folder.files.lookup file.1 = some file.2 := AList.mem_lookup_iff.mpr member

theorem lookup_uploaded {path : Path} {content : Content}
    (found : folder.files.lookup path = some content) :
    (uploadFromFolder folder blobDir container).lookup (blobName blobDir path) = some content := by
  apply Files.lookup_writeAll
  · exact List.mem_map.mpr ⟨⟨path, content⟩, AList.mem_lookup_iff.mp found, rfl⟩
  · intro file written same
    obtain ⟨entry, member, rfl⟩ := List.mem_map.mp written
    have other := mem_of_entry member
    have path_eq := blobName_injective (Files.mem_of_lookup other) (Files.mem_of_lookup found) same
    rw [path_eq, found] at other
    exact (Option.some.inj other).symm

theorem mem_uploaded {name : Name} (member : name ∈ uploadFromFolder folder blobDir container) :
    name ∈ container ∨ ∃ path ∈ folder.files, name = blobName blobDir path := by
  rcases Files.mem_writeAll.mp member with before | ⟨content, written⟩
  · exact .inl before
  · obtain ⟨entry, listed, same⟩ := List.mem_map.mp written
    cases same
    exact .inr ⟨entry.1, Files.mem_of_lookup (mem_of_entry listed), rfl⟩

/-! ## The items of the walk -/

theorem mem_walkBlobs {start it : Name} : it ∈ walkBlobs container start ↔
    ∃ name ∈ container, item start name = some it := by
  rw [walkBlobs, List.mem_dedup, List.mem_filterMap]
  rfl

theorem item_blob {start rest : Name} (plain : '/' ∉ rest) :
    item start (start ++ rest) = some (start ++ rest) := by
  rw [item, if_pos (List.prefix_append start rest)]
  simp [plain]

/-- Either the blob itself is listed, or a name that ends with a slash. -/
theorem item_cases {start name it : Name} (listed : item start name = some it) :
    ∃ rest, name = start ++ rest ∧ ('/' ∉ rest ∧ it = name ∨ ∃ before, it = before ++ ['/']) := by
  rw [item] at listed
  split at listed
  · rename_i starts
    obtain ⟨rest, rfl⟩ := starts
    refine ⟨rest, rfl, ?_⟩
    rw [List.drop_left] at listed
    dsimp only at listed
    split at listed
    · exact .inr ⟨_, (Option.some.inj listed).symm⟩
    · rename_i plain
      exact .inl ⟨plain, (Option.some.inj listed).symm⟩
  · cases listed

theorem downloadFile_ok {name : Name} {path : Path} {content : Content}
    (ok : downloadFile container name = .ok (path, content)) :
    container.lookup name = some content ∧ path = [basename name] ∧ basename name ≠ [] := by
  rw [downloadFile] at ok
  split at ok
  · cases ok
  · split at ok
    · cases ok
    · rename_i found base
      cases ok
      exact ⟨found, rfl, fun empty => base (.inl empty)⟩

/-- Everything in the target is an uploaded file that the walk lists. -/
theorem downloaded {target : AList fun _ : Path => Content}
    (empty : EmptyBefore container blobDir)
    (ok : downloadFolder (uploadFromFolder folder blobDir container) blobDir = .ok target)
    {path : Path} (member : path ∈ target) :
    ∃ rest, '/' ∉ rest ∧ path = [basename (nameStartsWith blobDir ++ rest)] ∧
      ∃ source ∈ folder.files, blobName blobDir source = nameStartsWith blobDir ++ rest := by
  obtain ⟨files, each, written⟩ := Fallible.bind_eq_ok.mp ok
  cases written
  rcases Files.mem_writeAll.mp member with before | ⟨content, listed⟩
  · cases before
  · obtain ⟨it, walked, downloads⟩ := (Fallible.mem_of_mapM each).mp listed
    obtain ⟨found, rfl, base⟩ := downloadFile_ok downloads
    obtain ⟨name, there, listed⟩ := mem_walkBlobs.mp walked
    obtain ⟨rest, rfl, ⟨plain, rfl⟩ | ⟨before, rfl⟩⟩ := item_cases listed
    · refine ⟨rest, plain, rfl, ?_⟩
      rcases mem_uploaded there with before | ⟨source, member, same⟩
      · exact absurd (List.prefix_append _ rest) (empty _ before).2
      · exact ⟨source, member, same.symm⟩
    · exact absurd (basename_append before List.not_mem_nil) base

/-! ## What is restored -/

/-- Both methods spell the blob directory in the same way, and no file is in a sub-directory. -/
def OneLevel (folder : Folder Content) (blobDir : List Char) : Prop :=
  directory (parse blobDir) = nameStartsWith blobDir ∧ ∀ path ∈ folder.files, ∃ name, path = [name]

theorem oneLevel_of_restores (empty : EmptyBefore container blobDir)
    (restores : Restores folder container blobDir) {path : Path} (member : path ∈ folder.files) :
    OneLevel folder blobDir := by
  obtain ⟨target, ok, same⟩ := restores
  have there {path : Path} (member : path ∈ folder.files) : path ∈ target :=
    (Files.mem_congr (same path)).mpr member
  have flat : ∀ path ∈ folder.files, ∃ name, path = [name] := by
    intro path member
    obtain ⟨rest, _, single, _⟩ := downloaded empty ok (there member)
    exact ⟨_, single⟩
  refine ⟨?_, flat⟩
  obtain ⟨rest, plain, _, source, uploaded, spelled⟩ := downloaded empty ok (there member)
  obtain ⟨name, rfl⟩ := flat source uploaded
  have slashless : '/' ∉ name := ((folder.named _ uploaded).2 name List.mem_cons_self).2.1
  rw [blobName_of_mem uploaded, relpath, List.intercalate_singleton] at spelled
  -- both texts are split at their last slash
  have split : Text.rsplit '/' (nameStartsWith blobDir ++ rest) =
      some ((blobDir.reverse.dropWhile (· = '/')).reverse, rest) := by
    rw [nameStartsWith, List.append_assoc]
    exact Text.rsplit_append plain
  rcases directory_ends blobDir with none | ⟨before, slash⟩
  · rw [none, List.nil_append] at spelled
    rw [← spelled, Text.rsplit_eq_none.mpr slashless] at split
    cases split
  · rw [slash, List.append_assoc] at spelled
    rw [← spelled, List.singleton_append, Text.rsplit_append slashless] at split
    cases split
    exact slash

theorem slashless {name : Name} (member : [name] ∈ folder.files) : '/' ∉ name :=
  ((folder.named _ member).2 name List.mem_cons_self).2.1

theorem blobName_flat (level : OneLevel folder blobDir) {name : Name}
    (member : [name] ∈ folder.files) : blobName blobDir [name] = nameStartsWith blobDir ++ name := by
  rw [blobName_of_mem member, level.1, relpath, List.intercalate_singleton]

theorem mem_walkBlobs_flat (empty : EmptyBefore container blobDir) (level : OneLevel folder blobDir)
    {it : Name} : it ∈ walkBlobs (uploadFromFolder folder blobDir container)
      (nameStartsWith blobDir) ↔ ∃ name, [name] ∈ folder.files ∧ it = blobName blobDir [name] := by
  rw [mem_walkBlobs]
  constructor
  · rintro ⟨blob, there, listed⟩
    rcases mem_uploaded there with before | ⟨path, member, rfl⟩
    · obtain ⟨rest, rfl, _⟩ := item_cases listed
      exact absurd (List.prefix_append _ rest) (empty _ before).2
    · obtain ⟨name, rfl⟩ := level.2 path member
      refine ⟨name, member, ?_⟩
      rw [blobName_flat level member, item_blob (slashless member)] at listed
      rw [blobName_flat level member]
      exact (Option.some.inj listed).symm
  · rintro ⟨name, member, rfl⟩
    obtain ⟨content, found⟩ := Files.mem_iff.mp member
    refine ⟨_, Files.mem_of_lookup (lookup_uploaded found), ?_⟩
    rw [blobName_flat level member]
    exact item_blob (slashless member)

theorem downloadFile_flat {name : Name} {content : Content}
    (found : folder.files.lookup [name] = some content) :
    downloadFile (uploadFromFolder folder blobDir container) (blobName blobDir [name]) =
      .ok ([name], content) := by
  have member := Files.mem_of_lookup found
  obtain ⟨filled, plain, dots⟩ := (folder.named _ member).2 name List.mem_cons_self
  have base : basename (blobName blobDir [name]) = name := by
    rw [blobName_of_mem member, relpath, List.intercalate_singleton]
    exact basename_blob blobDir plain
  rw [downloadFile, lookup_uploaded found, base]
  exact if_neg (by simpa using ⟨filled, dots⟩)

theorem restores_of_oneLevel (empty : EmptyBefore container blobDir)
    (level : OneLevel folder blobDir) : Restores folder container blobDir := by
  have downloads : ∀ it ∈ walkBlobs (uploadFromFolder folder blobDir container)
      (nameStartsWith blobDir), ∃ file,
        downloadFile (uploadFromFolder folder blobDir container) it = .ok file := by
    intro it walked
    obtain ⟨name, member, rfl⟩ := (mem_walkBlobs_flat empty level).mp walked
    obtain ⟨content, found⟩ := Files.mem_iff.mp member
    exact ⟨_, downloadFile_flat found⟩
  obtain ⟨files, each⟩ := Fallible.mapM_ok_iff.mpr downloads
  have mem_files {path : Path} {content : Content} :
      (path, content) ∈ files ↔ folder.files.lookup path = some content := by
    rw [Fallible.mem_of_mapM each]
    constructor
    · rintro ⟨it, walked, ok⟩
      obtain ⟨name, member, rfl⟩ := (mem_walkBlobs_flat empty level).mp walked
      obtain ⟨other, found⟩ := Files.mem_iff.mp member
      cases (downloadFile_flat found).symm.trans ok
      exact found
    · intro found
      obtain ⟨name, rfl⟩ := level.2 path (Files.mem_of_lookup found)
      exact ⟨_, (mem_walkBlobs_flat empty level).mpr ⟨name, Files.mem_of_lookup found, rfl⟩,
        downloadFile_flat found⟩
  refine ⟨Files.writeAll ∅ files, Fallible.bind_eq_ok.mpr ⟨files, each, rfl⟩, fun path => ?_⟩
  cases found : folder.files.lookup path with
  | none =>
      apply Files.lookup_writeAll_absent
      rintro ⟨other, content⟩ listed rfl
      cases found.symm.trans (mem_files.mp listed)
  | some content =>
      apply Files.lookup_writeAll (mem_files.mpr found)
      rintro ⟨other, content'⟩ listed rfl
      exact Option.some.inj ((mem_files.mp listed).symm.trans found)

theorem restores_of_no_files (empty : EmptyBefore container blobDir) (none : folder.files = ∅) :
    Restores folder container blobDir := by
  have walks : walkBlobs (uploadFromFolder folder blobDir container) (nameStartsWith blobDir) = [] := by
    apply List.eq_nil_iff_forall_not_mem.mpr
    intro it walked
    obtain ⟨name, there, listed⟩ := mem_walkBlobs.mp walked
    rcases mem_uploaded there with before | ⟨path, member, _⟩
    · obtain ⟨rest, rfl, _⟩ := item_cases listed
      exact absurd (List.prefix_append _ rest) (empty _ before).2
    · rw [none] at member
      cases member
  refine ⟨∅, ?_, fun path => by rw [none]⟩
  rw [downloadFolder, walks]
  rfl

/-- A folder comes back if it has no files, or none in a sub-directory and the blob directory is
spelled as the upload spells it. -/
theorem restores_iff (empty : EmptyBefore container blobDir) : Restores folder container blobDir ↔
    folder.files = ∅ ∨ OneLevel folder blobDir := by
  constructor
  · intro restores
    cases files : folder.files.entries with
    | nil => exact .inl (AList.ext files)
    | cons file rest =>
        have member : file ∈ folder.files.entries := files ▸ List.mem_cons_self
        exact .inr (oneLevel_of_restores empty restores (Files.mem_of_lookup (mem_of_entry member)))
  · rintro (none | level)
    · exact restores_of_no_files empty none
    · exact restores_of_oneLevel empty level

theorem emptyBefore_empty (blobDir : List Char) : EmptyBefore (∅ : Container Content) blobDir := by
  intro name member
  cases member

end

def remotePath : List Char := "remote_path".toList

def oneFile (path : Path) (named : path ≠ [] ∧ ∀ name ∈ path, IsName name) (content : Content) :
    Folder Content where
  files := AList.singleton path content
  named := by
    intro p member
    rw [List.mem_singleton.mp member]
    exact named
  apart := by
    intro p memberP q memberQ _
    rw [List.mem_singleton.mp memberP, List.mem_singleton.mp memberQ]

def flatFolder : Folder Nat where
  files := (AList.singleton ["a".toList] 1).insert ["b.txt".toList] 2
  named := by
    intro path member
    rcases AList.mem_insert _ |>.mp member with rfl | member
    · simp [IsName]
    · rw [List.mem_singleton.mp member]
      simp [IsName]
  apart := by
    intro p memberP q memberQ shorter
    rcases AList.mem_insert _ |>.mp memberP with rfl | memberP <;>
      rcases AList.mem_insert _ |>.mp memberQ with rfl | memberQ
    · rfl
    · rw [List.mem_singleton.mp memberQ] at shorter
      simp at shorter
    · rw [List.mem_singleton.mp memberP] at shorter
      simp at shorter
    · rw [List.mem_singleton.mp memberP, List.mem_singleton.mp memberQ]

def otherBlob : Container Nat := AList.singleton "other_path/a".toList 3

theorem flat_folder_restored : Restores flatFolder otherBlob remotePath := by
  have empty : EmptyBefore otherBlob remotePath := by
    intro name member
    rw [List.mem_singleton.mp member]
    decide
  refine (restores_iff empty).mpr (.inr ⟨by decide, fun path member => ?_⟩)
  rcases AList.mem_insert _ |>.mp member with rfl | member
  · exact ⟨_, rfl⟩
  · exact ⟨_, List.mem_singleton.mp member⟩

/-- One file in a sub-directory. -/
theorem nested_file_fails : EmptyBefore (∅ : Container Bool) remotePath ∧
    ¬ Restores (oneFile ["sub".toList, "a".toList] (by simp [IsName]) true) ∅ remotePath := by
  refine ⟨emptyBefore_empty remotePath, ?_⟩
  rintro ⟨target, ok, _⟩
  have fails : downloadFolder (uploadFromFolder
      (oneFile ["sub".toList, "a".toList] (by simp [IsName]) true) remotePath ∅) remotePath =
      .error .resourceNotFoundError := by rfl
  cases fails.symm.trans ok

end JobQ.BlobFolder
