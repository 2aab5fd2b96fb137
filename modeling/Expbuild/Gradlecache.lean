import Expbuild.Engines

/-! `operator/internal/gradlecache/server.go`: the build cache of Gradle. -/
namespace Expbuild.Gradlecache
open Expbuild.Disks Expbuild.Engines

/-- What the index knows of an archive. -/
structure Archive where
  size : Int
deriving DecidableEq,Repr

def validKey (key : String) : Bool :=
  (key.length = 32 || key.length = 64) && key.toList.all (fun c => c.isDigit || decide ('a' ≤ c ∧ c ≤ 'f'))

structure Server where
  maxEntry : Int
  maxTotal : Int

namespace Server

/-- A key is the name of its file. -/
def layout : Layout Archive := ⟨0,.entry,fun a => a.size⟩

def evictLocked (c : Server) (kept : Option String) (s : Store Archive) : Store Archive × Evicted :=
  let enough (s : Store Archive) : Bool := s.used ≤ c.maxTotal
  if enough s then (s,.ok) else evict layout enough enough (s.oldest (fun key => some key = kept)) s

/-- The loop of `New`: what is neither a staging file nor an entry stays unread. -/
def scan : List (FileName × Inode) → Store Archive → Option (Store Archive)
  | [],s => some s
  | (name,i) :: rest,s =>
    match s.volume.files i,name with
    | some file,.upload _ =>
      if file.regular then
        match s.remove name with
        | (s,.ok) => scan rest s
        | _ => none
      else scan rest s
    | some file,.entry key =>
      if validKey key && file.regular then
        match s.fails with
        | (_,true) => none
        | (s,false) =>
          scan rest (s.record layout key ⟨⟨file.contents.size 0⟩,file.modified⟩ file.contents)
      else scan rest s
    | _,_ => scan rest s

def new (c : Server) (v : Volume FileName (Contents Archive)) (next : Inode) (faults : List Bool) :
    Option (Store Archive) :=
  if c.maxEntry ≤ 0 || c.maxTotal ≤ 0 || c.maxEntry > c.maxTotal then none
  else
    match scan (items v) (.fresh v next faults) with
    | none => none
    | some s =>
      match c.evictLocked none s with
      | (s,.ok) => some s
      | _ => none

def start (c : Server) (r : Put) (_now : Nat) : Except Nat Archive :=
  if r.contentLength > c.maxEntry then .error 413 else .ok ⟨0⟩

def finish (c : Server) (_r : Put) (_a : Archive) (body : List UInt8) : Except Nat Archive :=
  if (body.length : Int) > c.maxEntry then .error 413 else .ok ⟨body.length⟩

/-- An archive is published first and the older ones make room for it; where they
    cannot, it is taken back. -/
def publish (c : Server) (p : Staged Archive) (rollbackFails : Bool) (s : Store Archive) : Store Archive × Nat :=
  match s.entries.lookup p.key with
  | some _ => (s,409)
  | none =>
    match s.link p.tmp (layout.filename p.key) with
    | (s,.exist) => (s,409)
    | (s,.failed) => (s,503)
    | (s,.ok) =>
      match c.evictLocked (some p.key) (s.record layout p.key ⟨p.artifact,p.accessed⟩ p.contents) with
      | (s,.ok) => (s,201)
      | (s,_) =>
        let s := ({ s with faults := [rollbackFails] }.remove (layout.filename p.key)).1
        (s.delete layout p.key,503)

/-- Access times go to the disk at most once a minute. -/
def get (key : String) (now : Nat) (s : Store Archive) : Store Archive × Answer Archive :=
  match s.entries.lookup key with
  | none => (s,.refused 404)
  | some e =>
    match s.fails with
    | (s,true) => (s,.refused 503)
    | (s,false) =>
      match (s.volume.names.lookup (layout.filename key)).bind (fun i => (s.volume.files i).map (fun f => (i,f))) with
      | none => (s.delete layout key,.refused 404)
      | some (i,file) =>
        let s := { s with entries := s.entries.insert key { e with accessed := now } }
        (if now - e.accessed ≥ 60 then s.perform (.touch i now) else s,.opened i e.artifact file.contents)

def engine (c : Server) : Engine Archive where
  layout := layout
  validKey := validKey
  maxEntry := c.maxEntry
  maxTotal := c.maxTotal
  exclusive := false
  queue := none
  refusesExisting := false
  keepsLock := false
  shared := true
  start := c.start
  limit := fun _ => (c.maxEntry + 1).toNat
  finish := c.finish
  header := fun _ => none
  publish := c.publish
  get := get

end Server
end Expbuild.Gradlecache
