import Expbuild.Engines

/-! `operator/internal/gocache/server.go`: the cache of Go's cacheprog. -/
namespace Expbuild.Gocache
open Expbuild.Disks Expbuild.Engines

def headerSize : Nat := 4096

structure Artifact where
  key : String
  size : Int
  digest : String
  md5 : String
  outputID : String
  compression : String
  uncompressedSize : Int
  modified : Int
deriving DecidableEq,Repr

/-- Lower case hexadecimal digits, of so many bytes. -/
def validHex (value : String) (size : Nat) : Bool :=
  value.length = size * 2 && value.toList.all (fun c => c.isDigit || decide ('a' ≤ c ∧ c ≤ 'f'))

def validKey (key : String) : Bool := validHex key 32

def validMetadata (a : Artifact) : Bool :=
  validKey a.key && validHex a.outputID 32 && validHex a.digest 32 && validHex a.md5 16 && 0 < a.modified &&
    0 ≤ a.uncompressedSize && (a.compression = "zstd" || a.compression = "" && a.uncompressedSize = a.size)

def marshal (a : Artifact) : List Char :=
  jsonObject [("key",quote a.key),("size",(toString a.size).toList),("digest",quote a.digest),("md5",quote a.md5),
    ("outputId",quote a.outputID),("compression",quote a.compression),
    ("uncompressedSize",(toString a.uncompressedSize).toList),("modified",(toString a.modified).toList)]

structure Server where
  sha256 : List UInt8 → String
  md5 : List UInt8 → String
  maxEntry : Int
  maxTotal : Int
  readOnly : Bool

namespace Server

def filename (c : Server) (key : String) : FileName := .entry (c.sha256 key.toUTF8.toList)

def layout (c : Server) : Layout Artifact := ⟨headerSize,c.filename,fun a => a.size⟩

def readArtifact (c : Server) (f : File (Contents Artifact)) : Option Artifact :=
  match f.regular,f.contents with
  | true,.envelope (some a) body =>
    if validMetadata a && 0 ≤ a.size && a.size = body.length && c.sha256 body = a.digest then some a else none
  | _,_ => none

def sameArtifact (a b : Artifact) : Bool :=
  a.key = b.key && a.size = b.size && a.digest = b.digest && a.md5 = b.md5 && a.outputID = b.outputID &&
    a.compression = b.compression && a.uncompressedSize = b.uncompressedSize && a.modified = b.modified

/-- At most 10000 entries, one fewer where one is to be added. -/
def evictLocked (c : Server) (incoming : Int) (keep : Option String) (adding : Bool) (s : Store Artifact) :
    Store Artifact × Evicted :=
  let enough (s : Store Artifact) : Bool := s.used ≤ c.maxTotal - incoming &&
    (s.entries.keys.length < 10000 || !adding && s.entries.keys.length ≤ 10000)
  let fits (s : Store Artifact) : Bool := s.used ≤ c.maxTotal - incoming
  evict c.layout enough fits (s.oldest (fun key => some key = keep)) s

def new (c : Server) (v : Volume FileName (Contents Artifact)) (next : Inode) (faults : List Bool) :
    Option (Store Artifact) :=
  if c.maxEntry ≤ 0 || c.maxTotal ≤ headerSize || c.maxEntry > c.maxTotal - headerSize then none
  else
    match scan c.layout (fun a => a.key) c.readArtifact
        (fun a => a.size ≤ c.maxEntry && a.uncompressedSize ≤ c.maxEntry) (items v) (.fresh v next faults) with
    | none => none
    | some s =>
      match c.evictLocked 0 none false s with
      | (s,.ok) => some s
      | _ => none

/-- The headers that are required exactly once. -/
def metadata : List String := ["X-Cacheprog-OutputID","X-Cacheprog-MD5Sum","X-Cacheprog-Sha256Sum",
  "X-Cacheprog-CompressionAlgorithm","X-Cacheprog-UncompressedSize"]

/-- The checks of `put`, after the one of `ServeHTTP` on a read-only cache. -/
def start (c : Server) (r : Put) (now : Nat) : Except Nat Artifact :=
  if c.readOnly then .error 403
  else if r.contentLength < 0 then .error 411
  else if r.contentLength > c.maxEntry then .error 413
  else if metadata.any (fun h => decide ((r.header h).length ≠ 1)) then .error 400
  else
    match parseInt (r.get "X-Cacheprog-UncompressedSize") with
    | none => .error 400
    | some uncompressedSize =>
      let a : Artifact := ⟨r.key,r.contentLength,r.get "X-Cacheprog-Sha256Sum",r.get "X-Cacheprog-MD5Sum",
        r.get "X-Cacheprog-OutputID",r.get "X-Cacheprog-CompressionAlgorithm",uncompressedSize,now⟩
      if !validMetadata a then .error 400
      else if a.uncompressedSize > c.maxEntry then .error 413
      else if r.get "Content-Encoding" ≠ "" then .error 400
      else .ok a

def finish (c : Server) (r : Put) (a : Artifact) (body : List UInt8) : Except Nat Artifact :=
  if (body.length : Int) ≠ r.contentLength then .error 400
  else
    let a := { a with size := body.length }
    if a.digest ≠ c.sha256 body ∨ a.md5 ≠ c.md5 body then .error 400
    else if (marshal a).length > headerSize - 4 then .error 400
    else .ok a

/-- What the entry of the key counts for now. -/
def replaced (c : Server) (key : String) (s : Store Artifact) : Int :=
  ((s.entries.lookup key).map (fun e => c.layout.charge e.artifact)).getD 0

/-- What a publication adds to `used`, if it adds anything. -/
def incoming (c : Server) (key : String) (a : Artifact) (s : Store Artifact) : Int :=
  let incoming := c.layout.charge a - c.replaced key s
  if incoming < 0 then 0 else incoming

/-- Replaces the complete envelope by one rename. Once renamed, the new envelope
    is published even if the directory cannot be synchronised. -/
def publish (c : Server) (p : Staged Artifact) (_rollbackFails : Bool) (s : Store Artifact) : Store Artifact × Nat :=
  let replaced := c.replaced p.key s
  match c.evictLocked (c.incoming p.key p.artifact s) (some p.key) (s.entries.lookup p.key).isNone s with
  | (s,.ok) =>
    match s.rename p.tmp (c.filename p.key) with
    | (s,true) =>
      let s := { s with used := s.used - replaced }
      let s := s.record c.layout p.key ⟨p.artifact,p.accessed⟩ p.contents
      match s.syncRoot with
      | (s,true) => (s,200)
      | (s,false) => (s,503)
    | (s,false) => (s,503)
  | (s,_) => (s,503)

def engine (c : Server) : Engine Artifact where
  layout := c.layout
  validKey := validKey
  maxEntry := c.maxEntry
  maxTotal := c.maxTotal
  exclusive := true
  queue := some 16
  refusesExisting := false
  keepsLock := true
  shared := false
  start := c.start
  limit := fun r => r.contentLength.toNat
  finish := c.finish
  header := some
  publish := c.publish
  get := getEntry c.layout c.readArtifact sameArtifact

end Server
end Expbuild.Gocache
