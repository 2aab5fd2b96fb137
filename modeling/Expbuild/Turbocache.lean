import Expbuild.Engines

/-! `operator/internal/turbocache/server.go`: the artifact API of Turborepo. -/
namespace Expbuild.Turbocache
open Expbuild.Disks Expbuild.Engines

def headerSize : Nat := 4096

structure Artifact where
  key : String
  size : Int
  digest : String
  duration : String
  tag : String
  sha : String
  dirtyHash : String
deriving DecidableEq,Repr

def validKey (key : String) : Bool :=
  key.utf8ByteSize ≠ 0 && key.utf8ByteSize ≤ 256 && key ≠ "." && key ≠ ".." &&
    key.toList.all (fun c => c.isLower || c.isUpper || c.isDigit || c = '-' || c = '_' || c = '.')

def safeMetadata (v : String) : Bool :=
  v.utf8ByteSize ≤ 512 && v.toList.all (fun c => 32 ≤ c.toNat && c.toNat ≤ 126)

/-- The metadata of the header, as `json.Marshal` writes them. -/
def marshal (a : Artifact) : List Char :=
  let optional (name value : String) : List (String × List Char) :=
    if value = "" then [] else [(name,quote value)]
  jsonObject ([("key",quote a.key),("size",(toString a.size).toList),("digest",quote a.digest),
    ("duration",quote a.duration)] ++ optional "tag" a.tag ++ optional "sha" a.sha ++ optional "dirtyHash" a.dirtyHash)

/-- The server of one instance; `sha256` is the hash in hexadecimal. -/
structure Server where
  sha256 : List UInt8 → String
  maxEntry : Int
  maxTotal : Int

namespace Server

def filename (c : Server) (key : String) : FileName := .entry (c.sha256 key.toUTF8.toList)

def layout (c : Server) : Layout Artifact := ⟨headerSize,c.filename,fun a => a.size⟩

def readArtifact (c : Server) (f : File (Contents Artifact)) : Option Artifact :=
  match f.regular,f.contents with
  | true,.envelope (some a) body =>
    if validKey a.key && 0 ≤ a.size && a.size = body.length && (parseUint a.duration).isSome &&
        [a.tag,a.sha,a.dirtyHash].all safeMetadata && c.sha256 body = a.digest then some a else none
  | _,_ => none

def sameArtifact (a b : Artifact) : Bool :=
  a.key = b.key && a.size = b.size && a.digest = b.digest && a.duration = b.duration && a.tag = b.tag &&
    a.sha = b.sha && a.dirtyHash = b.dirtyHash

def evictLocked (c : Server) (incoming : Int) (s : Store Artifact) : Store Artifact × Evicted :=
  let enough (s : Store Artifact) : Bool := s.used + incoming ≤ c.maxTotal
  evict c.layout enough enough (s.oldest (fun _ => false)) s

/-- `New` on the volume it finds. -/
def new (c : Server) (v : Volume FileName (Contents Artifact)) (next : Inode) (faults : List Bool) :
    Option (Store Artifact) :=
  if c.maxEntry ≤ 0 || c.maxTotal ≤ headerSize || c.maxEntry > c.maxTotal - headerSize then none
  else
    match scan c.layout (fun a => a.key) c.readArtifact (fun a => a.size ≤ c.maxEntry) (items v) (.fresh v next faults) with
    | none => none
    | some s =>
      match c.evictLocked 0 s with
      | (s,.ok) => some s
      | _ => none

/-- The headers of an artifact. -/
def metadata : List String := ["x-artifact-duration","x-artifact-tag","x-artifact-sha","x-artifact-dirty-hash"]

def start (c : Server) (r : Put) (_now : Nat) : Except Nat Artifact :=
  if r.contentLength < 0 then .error 411
  else if r.contentLength > c.maxEntry then .error 413
  else if (parseUint (r.get "x-artifact-duration")).isNone then .error 400
  else if metadata.any (fun k => decide ((r.header k).length > 1) || !safeMetadata (r.get k)) then .error 400
  else .ok ⟨r.key,0,"",r.get "x-artifact-duration",r.get "x-artifact-tag",r.get "x-artifact-sha",
    r.get "x-artifact-dirty-hash"⟩

def finish (c : Server) (r : Put) (a : Artifact) (body : List UInt8) : Except Nat Artifact :=
  if (body.length : Int) ≠ r.contentLength then .error 400
  else
    let a := { a with size := body.length, digest := c.sha256 body }
    if (marshal a).length > headerSize - 4 then .error 400 else .ok a

/-- A retry of the same bytes succeeds: the first writer owns the metadata. -/
def duplicate (old a : Artifact) : Nat := if old.digest = a.digest ∧ old.tag = a.tag then 200 else 409

def engine (c : Server) : Engine Artifact where
  layout := c.layout
  validKey := validKey
  maxEntry := c.maxEntry
  maxTotal := c.maxTotal
  exclusive := true
  queue := none
  refusesExisting := false
  keepsLock := true
  shared := false
  start := c.start
  limit := fun r => r.contentLength.toNat
  finish := c.finish
  header := some
  publish := addEntry c.layout c.evictLocked duplicate
  get := getEntry c.layout c.readArtifact sameArtifact

end Server
end Expbuild.Turbocache
