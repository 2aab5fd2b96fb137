import Expbuild.Schema

/-!
Project quotas: what the bindings of a project reserve, the check against the
limits, reserving for a request and settling after success.
-/
namespace Expbuild.Quotas
open Expbuild.Contract Expbuild.Schema Expbuild.Tables

/-- `coalesce(sum(...) FILTER (...),0)` of one column, for one row. -/
def counted (included : Bool) (column : Option Nat) : Nat := if included then column.getD 0 else 0

/-- What one row adds to `instances`. -/
def usesInstance (projectId : ProjectId) (b : Binding) : Nat :=
  if b.projectId = projectId ∧ b.lifecycle.released = false then 1 else 0
def usesStorage (projectId : ProjectId) (b : Binding) : Nat :=
  counted (decide (b.projectId = projectId) && decide (b.lifecycle ≠ .deleted)) b.reservedStorageGib
def usesCpu (projectId : ProjectId) (b : Binding) : Nat :=
  counted (decide (b.projectId = projectId) && !b.lifecycle.released) b.reservedCpuMillis
def usesMemory (projectId : ProjectId) (b : Binding) : Nat :=
  counted (decide (b.projectId = projectId) && !b.lifecycle.released) b.reservedMemoryMib
/-- Whether a row counts as an unknown reservation. -/
def unresolved (b : Binding) : Bool :=
  b.lifecycle ≠ .deleted ∧ (b.reservedStorageGib = none ∨
    (b.lifecycle ≠ .detached ∧ (b.reservedCpuMillis = none ∨ b.reservedMemoryMib = none)))
def usesUnknown (projectId : ProjectId) (b : Binding) : Nat :=
  if b.projectId = projectId ∧ unresolved b then 1 else 0

structure Reserved where
  instances : Nat
  storageGiB : Nat
  cpuMillis : Nat
  memoryMiB : Nat
  deriving DecidableEq,Repr

inductive Synchronization where
  | failed | applied | pending
  deriving DecidableEq,Repr

structure Snapshot where
  synchronization : Synchronization
  limits : Quota
  revision : Nat
  reserved : Reserved
  unknownReservations : Nat
  deriving DecidableEq,Repr

def reserved (projectId : ProjectId) (bindings : Table InstanceId Binding) : Reserved where
  instances := total (fun _ => usesInstance projectId) bindings
  storageGiB := total (fun _ => usesStorage projectId) bindings
  cpuMillis := total (fun _ => usesCpu projectId) bindings
  memoryMiB := total (fun _ => usesMemory projectId) bindings
def unknownReservations (projectId : ProjectId) (bindings : Table InstanceId Binding) : Nat :=
  total (fun _ => usesUnknown projectId) bindings

def quotaSnapshot (db : Db) (projectId : ProjectId) : Except Failure Snapshot :=
  match db.projects.lookup projectId with
  | none => .error (.http 404 "Project not found")
  | some project => .ok
    { synchronization := if project.quotaSyncError.isSome then .failed
        else if project.quotaObservedRevision = some project.quotaRevision then .applied else .pending
      limits := project.quotaLimits
      revision := project.quotaRevision
      reserved := reserved projectId db.bindings
      unknownReservations := unknownReservations projectId db.bindings }

def Quota.limited (limits : Quota) : Bool :=
  limits.instances.isSome || limits.storageGiB.isSome || limits.cpuMillis.isSome || limits.memoryMiB.isSome

/-- `limit !== null && amount > limit`. -/
def exceeds (limit : Option Nat) (amount : Nat) : Bool :=
  match limit with
  | none => false
  | some l => l < amount

def checkQuota (limits : Quota) (reserved : Reserved) (unknown : Nat) : Except Failure Unit :=
  if unknown ≠ 0 ∧ Quota.limited limits then .error (.http 409 "Project has unresolved resource reservations")
  else if exceeds limits.instances reserved.instances then .error (.http 409 "Project quota exceeded: instances")
  else if exceeds limits.storageGiB reserved.storageGiB then .error (.http 409 "Project quota exceeded: storageGiB")
  else if exceeds limits.cpuMillis reserved.cpuMillis then .error (.http 409 "Project quota exceeded: cpuMillis")
  else if exceeds limits.memoryMiB reserved.memoryMiB then .error (.http 409 "Project quota exceeded: memoryMiB")
  else .ok ()

/-- `greatest(coalesce(column,0),amount)` in the three columns. -/
def Binding.raise (input : Resources) (b : Binding) : Binding :=
  { b with
    reservedStorageGib := some (max (b.reservedStorageGib.getD 0) input.storageGiB)
    reservedCpuMillis := some (max (b.reservedCpuMillis.getD 0) input.cpuMillis)
    reservedMemoryMib := some (max (b.reservedMemoryMib.getD 0) input.memoryMiB) }

/-- The check of a request against the limits, after its rows are written. -/
def checked (db : Db) (projectId : ProjectId) : Except Failure Unit := do
  let snapshot ← quotaSnapshot db projectId
  checkQuota snapshot.limits snapshot.reserved snapshot.unknownReservations

/-- Whether all three columns are set. -/
def Binding.known (b : Binding) : Bool :=
  b.reservedStorageGib.isSome && b.reservedCpuMillis.isSome && b.reservedMemoryMib.isSome

def reserveResources (db : Db) (projectId : ProjectId) (instanceId : InstanceId) (input : Resources)
    (creating : Bool := false) : Except Failure Db := do
  let row := (db.bindings.lookup instanceId).filter (fun b => b.projectId = projectId)
  demand (creating = true ∨ row.any Binding.known) (.http 409 "Instance has unresolved resource reservations")
  demand (row.any (fun b => !b.lifecycle.released)) (.http 409 "Instance cannot reserve resources")
  let after := { db with bindings := modify instanceId (Binding.raise input) db.bindings }
  checked after projectId
  return after

/-- `greatest(column,amount)`, where `greatest` ignores an absent value. -/
def greatest (column : Option Nat) (amount : Nat) : Option Nat :=
  match column with
  | none => some amount
  | some n => some (max n amount)

/-- Suspension keeps the promised resources, and storage never shrinks. -/
def Binding.settle (settled : Resources) (b : Binding) : Binding :=
  { b with
    reservedStorageGib := greatest b.reservedStorageGib settled.storageGiB
    reservedCpuMillis := some settled.cpuMillis
    reservedMemoryMib := some settled.memoryMiB }

def settleResources (db : Db) (instanceId : InstanceId) (desired : Manifest) : Except Failure Db :=
  match requested desired.spec with
  | none => .error (.api none)
  | some settled => .ok { db with bindings := modify instanceId (Binding.settle settled) db.bindings }

end Expbuild.Quotas
