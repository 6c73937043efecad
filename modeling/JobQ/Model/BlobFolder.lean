import Mathlib.Data.List.Dedup
import JobQ.Library.Files
import JobQ.Library.Text

/-!
# Folders in a blob container

`upload_from_folder`, `download_folder` and `download_file` of `BlobContainer` in
`ai4s/jobq/blob.py`. A container maps the names of its blobs to their contents, and `walk_blobs`
lists one level. The files of a folder are uploaded one after the other, with `overwrite=True`, as no
two of them have the same name there, and are downloaded into an empty directory. The statistics are
left out.
-/

namespace JobQ.BlobFolder

variable {Content : Type*}

abbrev Name := List Char

abbrev Path := List Name

def IsName (name : Name) : Prop :=
  name ≠ [] ∧ '/' ∉ name ∧ name ≠ ".".toList ∧ name ≠ "..".toList

structure Folder (Content : Type*) where
  files : AList fun _ : Path => Content
  named : ∀ path ∈ files, path ≠ [] ∧ ∀ name ∈ path, IsName name
  apart : ∀ p ∈ files, ∀ q ∈ files, p <+: q → p = q

abbrev Container (Content : Type*) := AList fun _ : Name => Content

/-! ## Names -/

structure PurePosixPath where
  root : List Char
  parts : List Name
deriving DecidableEq

namespace PurePosixPath

/-- POSIX gives two leading slashes a meaning of their own. -/
def rootOf (text : List Char) : List Char :=
  match (text.takeWhile (· = '/')).length with
  | 0 => []
  | 2 => "//".toList
  | _ => "/".toList

def parse (text : List Char) : PurePosixPath where
  root := rootOf text
  parts := (text.splitOn '/').filter fun part => part ≠ [] ∧ part ≠ ".".toList

def join (path other : PurePosixPath) : PurePosixPath :=
  if other.root = [] then ⟨path.root, path.parts ++ other.parts⟩ else other

def str (path : PurePosixPath) : List Char :=
  if path.root = [] ∧ path.parts = [] then ".".toList
  else path.root ++ ['/'].intercalate path.parts

end PurePosixPath

def relpath (path : Path) : List Char := ['/'].intercalate path

def basename (name : Name) : Name :=
  match Text.rsplit '/' name with
  | none => name
  | some (_, base) => base

/-! ## Upload -/

def blobName (blobDir : List Char) (path : Path) : Name :=
  ((PurePosixPath.parse blobDir).join (PurePosixPath.parse (relpath path))).str

def uploadFromFolder (folder : Folder Content) (blobDir : List Char) (container : Container Content) :
    Container Content :=
  Files.writeAll container
    (folder.files.entries.map fun file => (blobName blobDir file.1, file.2))

/-! ## Download -/

def nameStartsWith (blobDir : List Char) : List Char :=
  (blobDir.reverse.dropWhile (· = '/')).reverse ++ ['/']

/-- The item of `walk_blobs(name_starts_with=start)` that a blob is listed under: itself, or the prefix
of its sub-directory. -/
def item (start name : Name) : Option Name :=
  if start <+: name then
    let rest := name.drop start.length
    if '/' ∈ rest then some (start ++ rest.takeWhile (· ≠ '/') ++ ['/']) else some name
  else none

def walkBlobs (container : Container Content) (start : Name) : List Name :=
  (container.keys.filterMap (item start)).dedup

inductive Exc where
  | resourceNotFoundError
  | isADirectoryError
deriving DecidableEq

def downloadFile (container : Container Content) (name : Name) : Except Exc (Path × Content) :=
  match container.lookup name with
  | none => .error .resourceNotFoundError
  | some content =>
    if basename name = [] ∨ basename name = ".".toList ∨ basename name = "..".toList then
      .error .isADirectoryError
    else .ok ([basename name], content)

def downloadFolder (container : Container Content) (blobDir : List Char) :
    Except Exc (AList fun _ : Path => Content) := do
  let files ← (walkBlobs container (nameStartsWith blobDir)).mapM (downloadFile container)
  return Files.writeAll ∅ files

end JobQ.BlobFolder
