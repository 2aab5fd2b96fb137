import Expbuild.Turbocache

/-! `operator/internal/nxcache/server.go`: the create-only cache of Nx. -/
namespace Expbuild.Nxcache
open Expbuild.Disks Expbuild.Engines

def headerSize : Nat := 4096

structure Artifact where
  key : String
  size : Int
  digest : String
deriving DecidableEq,Repr

/-- The keys of Turborepo and Nx are the same. -/
def validKey (key : String) : Bool := Turbocache.validKey key

def marshal (a : Artifact) : List Char :=
  jsonObject [("key",quote a.key),("size",(toString a.size).toList),("digest",quote a.digest)]

structure Server where
  sha256 : List UInt8 → String
  maxEntry : Int
  maxTotal : Int

namespace Server

def filename (c : Server) (key : String) : FileName := .entry (c.sha256 key.toUTF8.toList)

def layout (c : Server) : Layout Artifact := ⟨headerSize,c.filename,fun a => a.size⟩

def readArtifact (c : Server) (f : File (Contents Artifact)) : Option Artifact :=
  match f.regular,f.contents with
  | true,.envelope (some a) body =>
    if validKey a.key && 0 ≤ a.size && a.size = body.length && c.sha256 body = a.digest then some a else none
  | _,_ => none

def sameArtifact (a b : Artifact) : Bool := a.key = b.key && a.size = b.size && a.digest = b.digest

def evictLocked (c : Server) (incoming : Int) (s : Store Artifact) : Store Artifact × Evicted :=
  let enough (s : Store Artifact) : Bool := s.used ≤ c.maxTotal - incoming
  evict c.layout enough enough (s.oldest (fun _ => false)) s

def new (c : Server) (v : Volume FileName (Contents Artifact)) (next : Inode) (faults : List Bool) :
    Option (Store Artifact) :=
  if c.maxEntry ≤ 0 || c.maxTotal ≤ headerSize || c.maxEntry > c.maxTotal - headerSize then none
  else
    match scan c.layout (fun a => a.key) c.readArtifact (fun a => a.size ≤ c.maxEntry) (items v) (.fresh v next faults) with
    | none => none
    | some s =>
      match c.evictLocked 0 s with
      | (s,.ok) => some s
      | _ => none

def start (c : Server) (r : Put) (_now : Nat) : Except Nat Artifact :=
  if r.contentLength < 0 then .error 411
  else if r.contentLength > c.maxEntry then .error 413
  else .ok ⟨r.key,0,""⟩

def finish (c : Server) (r : Put) (a : Artifact) (body : List UInt8) : Except Nat Artifact :=
  if (body.length : Int) ≠ r.contentLength then .error 400
  else
    let a := { a with size := body.length, digest := c.sha256 body }
    if (marshal a).length > headerSize - 4 then .error 400 else .ok a

def engine (c : Server) : Engine Artifact where
  layout := c.layout
  validKey := validKey
  maxEntry := c.maxEntry
  maxTotal := c.maxTotal
  exclusive := true
  queue := some 16
  refusesExisting := true
  keepsLock := true
  shared := false
  start := c.start
  limit := fun r => r.contentLength.toNat
  finish := c.finish
  header := some
  publish := addEntry c.layout c.evictLocked (fun _ _ => 409)
  get := getEntry c.layout c.readArtifact sameArtifact

end Server
end Expbuild.Nxcache
