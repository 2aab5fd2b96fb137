import Expbuild.Turbocache
import Expbuild.Nxcache
import Expbuild.Gocache
import Expbuild.Gradlecache

/-!
The `int64` arithmetic of the cache engines. Every function of an engine that
adds or subtracts sizes is written a second time with sums and differences that
are undefined where an `int64` overflows; where such a function has a value, no
expression of its body has overflowed and the value is the one of the integers.
-/
namespace Expbuild.Checked
open Expbuild.Disks Expbuild.Engines

/-! ### Sums that may overflow -/

/-- The values of an `int64`. -/
def Word (n : Int) : Prop := -2 ^ 63 ≤ n ∧ n < 2 ^ 63

instance (n : Int) : Decidable (Word n) := inferInstanceAs (Decidable (_ ∧ _))

/-- `a + b`, if it does not overflow. -/
def add (a b : Int) : Option Int := if Word (a + b) then some (a + b) else none

/-- `a - b`, if it does not overflow. -/
def sub (a b : Int) : Option Int := if Word (a - b) then some (a - b) else none

variable {A : Type}

/-- `s.used -= s.entries[key].Size + headerSize; delete(s.entries, key)` -/
def delete (L : Layout A) (key : String) (s : Store A) : Option (Store A) := do
  let charge ← add (((s.entries.lookup key).map (fun e => L.size e.artifact)).getD 0) L.header
  let used ← sub s.used charge
  return { s.delete L key with used }

/-- `s.entries[key] = a; s.used += a.Size + headerSize` -/
def record (L : Layout A) (key : String) (e : Entry A) (contents : Contents A) (s : Store A) : Option (Store A) := do
  let charge ← add (L.size e.artifact) L.header
  let used ← add s.used charge
  return { s.record L key e contents with used }

/-- The loop of `evictLocked`. -/
def evict (L : Layout A) (enough fits : Store A → Option Bool) : List String → Store A → Option (Store A × Evicted)
  | [],s => do return (s,if ← fits s then .ok else .exceeded)
  | key :: rest,s => do
    if ← enough s then return (s,.ok)
    else
      match s.remove (L.filename key) with
      | (s,.failed) => return (s,.failed)
      | (s,_) => evict L enough fits rest (← delete L key s)

/-- The section of `put` in the engines that never replace an entry. -/
def addEntry (L : Layout A) (evictLocked : Int → Store A → Option (Store A × Evicted)) (duplicate : A → A → Nat)
    (p : Staged A) (rollbackFails : Bool) (s : Store A) : Option (Store A × Nat) :=
  match s.entries.lookup p.key with
  | some old => some (s,duplicate old.artifact p.artifact)
  | none => do
    match ← evictLocked (← add (L.size p.artifact) L.header) s with
    | (s,.ok) =>
      match s.link p.tmp (L.filename p.key) with
      | (s,.ok) =>
        match s.syncRoot with
        | (s,true) => return (← record L p.key ⟨p.artifact,p.accessed⟩ p.contents s,200)
        | (s,false) => return (({ s with faults := [rollbackFails] }.remove (L.filename p.key)).1,503)
      | (s,_) => return (s,503)
    | (s,_) => return (s,503)

/-- The loop of `New` over the directory. The inner option is its error. -/
def scan (L : Layout A) (key : A → String) (readArtifact : File (Contents A) → Option A) (accepts : A → Bool) :
    List (FileName × Inode) → Store A → Option (Option (Store A))
  | [],s => some (some s)
  | (name,i) :: rest,s =>
    match s.volume.files i,name with
    | some file,.upload _ =>
      if file.regular then
        match s.remove name with
        | (s,.ok) => scan L key readArtifact accepts rest s
        | _ => some none
      else some none
    | some file,.entry _ =>
      if file.regular then
        match openFile readArtifact name s with
        | (s,some (_,a,file)) =>
          if L.filename (key a) = name && accepts a then
            (record L (key a) ⟨a,file.modified⟩ file.contents s).bind (scan L key readArtifact accepts rest)
          else some none
        | _ => some none
      else some none
    | _,_ => some none

/-- The functions of an engine that compute sizes. -/
structure Machine (A : Type) where
  /-- The bound of the `LimitReader` around a body. -/
  limit : Put → Option Int
  publish : Staged A → Bool → Store A → Option (Store A × Nat)
  get : String → Nat → Store A → Option (Store A × Answer A)

/-- No expression of a step overflows, and the sections under `mu` do what they do
    with the integers. -/
def Exact (E : Engine A) (M : Machine A) (l : Label) (s : System A) : Prop :=
  match l with
  | .create t _ _ _ => ∀ r a, s.threads.lookup t = some (.admitted r a) → (M.limit r).isSome = true
  | .publish t faults rollbackFails => ∀ p i, s.threads.lookup t = some (.staged p i) →
      M.publish p rollbackFails (s.enter faults) = some (E.publish p rollbackFails (s.enter faults))
  | .fetch t now faults => ∀ key, s.threads.lookup t = some (.asked key) →
      M.get key now (s.enter faults) = some (E.get key now (s.enter faults))
  | _ => True

/-! ### The four engines -/

section turbocache
variable (c : Turbocache.Server)

/-- `s.used+incoming <= s.maxTotal` -/
def turboEnough (incoming : Int) (s : Store Turbocache.Artifact) : Option Bool := do
  return decide ((← add s.used incoming) ≤ c.maxTotal)

def turboEvictLocked (incoming : Int) (s : Store Turbocache.Artifact) : Option (Store Turbocache.Artifact × Evicted) :=
  evict c.layout (turboEnough c incoming) (turboEnough c incoming) (s.oldest (fun _ => false)) s

def turboNew (v : Volume FileName (Contents Turbocache.Artifact)) (next : Inode) (faults : List Bool) :
    Option (Option (Store Turbocache.Artifact)) := do
  if c.maxEntry ≤ 0 || c.maxTotal ≤ Turbocache.headerSize then return none
  else if c.maxEntry > (← sub c.maxTotal Turbocache.headerSize) then return none
  else
    match ← scan c.layout (fun a => a.key) c.readArtifact (fun a => a.size ≤ c.maxEntry) (items v) (.fresh v next faults) with
    | none => return none
    | some s =>
      match ← turboEvictLocked c 0 s with
      | (s,.ok) => return some s
      | _ => return none

def turboMachine : Machine Turbocache.Artifact where
  limit := fun r => add r.contentLength 1
  publish := addEntry c.layout (turboEvictLocked c) Turbocache.Server.duplicate
  get := fun key now s => some (c.engine.get key now s)

end turbocache

section nxcache
variable (c : Nxcache.Server)

/-- `s.used <= s.maxTotal-incoming` -/
def nxEnough (incoming : Int) (s : Store Nxcache.Artifact) : Option Bool := do
  return decide (s.used ≤ (← sub c.maxTotal incoming))

def nxEvictLocked (incoming : Int) (s : Store Nxcache.Artifact) : Option (Store Nxcache.Artifact × Evicted) :=
  evict c.layout (nxEnough c incoming) (nxEnough c incoming) (s.oldest (fun _ => false)) s

def nxNew (v : Volume FileName (Contents Nxcache.Artifact)) (next : Inode) (faults : List Bool) :
    Option (Option (Store Nxcache.Artifact)) := do
  if c.maxEntry ≤ 0 || c.maxTotal ≤ Nxcache.headerSize then return none
  else if c.maxEntry > (← sub c.maxTotal Nxcache.headerSize) then return none
  else
    match ← scan c.layout (fun a => a.key) c.readArtifact (fun a => a.size ≤ c.maxEntry) (items v) (.fresh v next faults) with
    | none => return none
    | some s =>
      match ← nxEvictLocked c 0 s with
      | (s,.ok) => return some s
      | _ => return none

def nxMachine : Machine Nxcache.Artifact where
  limit := fun r => add r.contentLength 1
  publish := addEntry c.layout (nxEvictLocked c) (fun _ _ => 409)
  get := fun key now s => some (c.engine.get key now s)

end nxcache

section gocache
variable (c : Gocache.Server)

def goFits (incoming : Int) (s : Store Gocache.Artifact) : Option Bool := do
  return decide (s.used ≤ (← sub c.maxTotal incoming))

def goEnough (incoming : Int) (adding : Bool) (s : Store Gocache.Artifact) : Option Bool := do
  return (← goFits c incoming s) && (s.entries.keys.length < 10000 || !adding && s.entries.keys.length ≤ 10000)

def goEvictLocked (incoming : Int) (keep : Option String) (adding : Bool) (s : Store Gocache.Artifact) :
    Option (Store Gocache.Artifact × Evicted) :=
  evict c.layout (goEnough c incoming adding) (goFits c incoming) (s.oldest (fun key => some key = keep)) s

def goNew (v : Volume FileName (Contents Gocache.Artifact)) (next : Inode) (faults : List Bool) :
    Option (Option (Store Gocache.Artifact)) := do
  if c.maxEntry ≤ 0 || c.maxTotal ≤ Gocache.headerSize then return none
  else if c.maxEntry > (← sub c.maxTotal Gocache.headerSize) then return none
  else
    match ← scan c.layout (fun a => a.key) c.readArtifact
        (fun a => a.size ≤ c.maxEntry && a.uncompressedSize ≤ c.maxEntry) (items v) (.fresh v next faults) with
    | none => return none
    | some s =>
      match ← goEvictLocked c 0 none false s with
      | (s,.ok) => return some s
      | _ => return none

/-- `old.Size + headerSize`, if the key exists. -/
def goReplaced (key : String) (s : Store Gocache.Artifact) : Option Int :=
  match s.entries.lookup key with
  | some old => add old.artifact.size Gocache.headerSize
  | none => some 0

def goPublish (p : Staged Gocache.Artifact) (_rollbackFails : Bool) (s : Store Gocache.Artifact) :
    Option (Store Gocache.Artifact × Nat) := do
  let charge ← add p.artifact.size Gocache.headerSize
  let replaced ← goReplaced p.key s
  let incoming ← sub charge replaced
  match ← goEvictLocked c (if incoming < 0 then 0 else incoming) (some p.key) (s.entries.lookup p.key).isNone s with
  | (s,.ok) =>
    match s.rename p.tmp (c.filename p.key) with
    | (s,true) =>
      let used ← sub s.used replaced
      let s ← record c.layout p.key ⟨p.artifact,p.accessed⟩ p.contents { s with used }
      match s.syncRoot with
      | (s,true) => return (s,200)
      | (s,false) => return (s,503)
    | (s,false) => return (s,503)
  | (s,_) => return (s,503)

def goMachine : Machine Gocache.Artifact where
  limit := fun r => add r.contentLength 1
  publish := goPublish c
  get := fun key now s => some (c.engine.get key now s)

end gocache

section gradlecache
variable (c : Gradlecache.Server)

/-- `s.used <= s.maxTotal`, which computes nothing. -/
def gradleEnough (s : Store Gradlecache.Archive) : Option Bool := some (s.used ≤ c.maxTotal)

def gradleEvictLocked (kept : Option String) (s : Store Gradlecache.Archive) : Option (Store Gradlecache.Archive × Evicted) :=
  if s.used ≤ c.maxTotal then some (s,.ok)
  else evict Gradlecache.Server.layout (gradleEnough c) (gradleEnough c) (s.oldest (fun key => some key = kept)) s

def gradleScan : List (FileName × Inode) → Store Gradlecache.Archive → Option (Option (Store Gradlecache.Archive))
  | [],s => some (some s)
  | (name,i) :: rest,s =>
    match s.volume.files i,name with
    | some file,.upload _ =>
      if file.regular then
        match s.remove name with
        | (s,.ok) => gradleScan rest s
        | _ => some none
      else gradleScan rest s
    | some file,.entry key =>
      if Gradlecache.validKey key && file.regular then
        match s.fails with
        | (_,true) => some none
        | (s,false) => (record Gradlecache.Server.layout key ⟨⟨file.contents.size 0⟩,file.modified⟩ file.contents s).bind
            (gradleScan rest)
      else gradleScan rest s
    | _,_ => gradleScan rest s

def gradleNew (v : Volume FileName (Contents Gradlecache.Archive)) (next : Inode) (faults : List Bool) :
    Option (Option (Store Gradlecache.Archive)) := do
  if c.maxEntry ≤ 0 || c.maxTotal ≤ 0 || c.maxEntry > c.maxTotal then return none
  else
    match ← gradleScan (items v) (.fresh v next faults) with
    | none => return none
    | some s =>
      match ← gradleEvictLocked c none s with
      | (s,.ok) => return some s
      | _ => return none

def gradlePublish (p : Staged Gradlecache.Archive) (rollbackFails : Bool) (s : Store Gradlecache.Archive) :
    Option (Store Gradlecache.Archive × Nat) :=
  match s.entries.lookup p.key with
  | some _ => some (s,409)
  | none =>
    match s.link p.tmp (Gradlecache.Server.layout.filename p.key) with
    | (s,.exist) => some (s,409)
    | (s,.failed) => some (s,503)
    | (s,.ok) => do
      match ← gradleEvictLocked c (some p.key) (← record Gradlecache.Server.layout p.key ⟨p.artifact,p.accessed⟩ p.contents s) with
      | (s,.ok) => return (s,201)
      | (s,_) =>
        let s := ({ s with faults := [rollbackFails] }.remove (Gradlecache.Server.layout.filename p.key)).1
        return (← delete Gradlecache.Server.layout p.key s,503)

/-- The section of `get`, which forgets an entry whose file is gone. -/
def gradleGet (key : String) (now : Nat) (s : Store Gradlecache.Archive) :
    Option (Store Gradlecache.Archive × Answer Gradlecache.Archive) :=
  match s.entries.lookup key with
  | none => some (s,.refused 404)
  | some e =>
    match s.fails with
    | (s,true) => some (s,.refused 503)
    | (s,false) =>
      match (s.volume.names.lookup (Gradlecache.Server.layout.filename key)).bind
          (fun i => (s.volume.files i).map (fun f => (i,f))) with
      | none => do return (← delete Gradlecache.Server.layout key s,.refused 404)
      | some (i,file) =>
        let s := { s with entries := s.entries.insert key { e with accessed := now } }
        some (if now - e.accessed ≥ 60 then s.perform (.touch i now) else s,.opened i e.artifact file.contents)

def gradleMachine : Machine Gradlecache.Archive where
  limit := fun _ => add c.maxEntry 1
  publish := gradlePublish c
  get := gradleGet

end gradlecache

end Expbuild.Checked
