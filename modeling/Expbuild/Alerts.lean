import Expbuild.Timestamps
import Expbuild.Runs
import Expbuild.Contract

/-!
Alerts come twice: Alertmanager delivers them to the webhook, which stores them under
their start, rounded to microseconds, and a reconciliation reads the active ones and
confirms the stored ones that are among them. Both write the start to the millisecond,
and the texts are compared. They differ where rounding reaches the next millisecond, or
where the year does not have four digits (`alert_identity`).
-/
namespace Expbuild.Alerts
open Expbuild.Contract Expbuild.Timestamps Expbuild.Runs

/-! ### Times as they are sent -/

/-- What `z.iso.datetime({ offset: true })` accepts: a date of the calendar, a time of
    day with any number of digits after the second, and an offset in minutes. -/
structure Stamp where
  year : Nat
  month : Nat
  day : Nat
  hour : Nat
  minute : Nat
  second : Nat := 0
  fraction : List (Fin 10) := []
  offset : Int := 0
  years : year ≤ 9999 := by decide
  date : civil (days ⟨year,month,day⟩) = ⟨year,month,day⟩ := by decide
  hours : hour < 24 := by decide
  minutes : minute < 60 := by decide
  seconds : second < 60 := by decide
  offsets : offset.natAbs < 1440 := by decide
  deriving DecidableEq

namespace Stamp

/-- The digits after the second are `numerator / scale`. -/
def numerator (z : Stamp) : Nat := z.fraction.foldl (fun n d => 10 * n + d) 0
def scale (z : Stamp) : Nat := 10 ^ z.fraction.length

/-- The whole seconds since the epoch. -/
def epoch (z : Stamp) : Int :=
  86400 * days ⟨z.year,z.month,z.day⟩ + 3600 * z.hour + 60 * z.minute + z.second - 60 * z.offset

/-- `new Date(startsAt)`: the digits after the millisecond are dropped. -/
def milliseconds (z : Stamp) : Int := 1000 * z.epoch + (z.numerator * 1000 / z.scale : Nat)

end Stamp

/-- The nearest whole number, an even one where two are as near. -/
def rint (n d : Nat) : Nat :=
  if 2 * (n % d) < d ∨ (2 * (n % d) = d ∧ n / d % 2 = 0) then n / d else n / d + 1

/-- The column of type `timestamptz`, in microseconds: there is no year 0, and no offset
    of 16 hours or more. -/
def timestamptz (z : Stamp) : Option Int :=
  if z.year = 0 ∨ 960 ≤ z.offset.natAbs then none
  else some (1000000 * z.epoch + (rint (z.numerator * 1000000) z.scale : Nat))

/-! ### The alerts -/

def hexadecimal (c : Char) : Bool := ('0' ≤ c && c ≤ '9') || ('a' ≤ c && c ≤ 'f') || ('A' ≤ c && c ≤ 'F')
/-- `/^[a-fA-F0-9]{1,128}$/` -/
abbrev Fingerprint := { text : List Char // text.all hexadecimal = true ∧ 1 ≤ text.length ∧ text.length ≤ 128 }

inductive AlertState where
  | firing | resolved
  deriving DecidableEq,Repr

/-- A row of `observation_alerts`. -/
structure AlertRow where
  projectId : ProjectId
  instanceUid : String
  fingerprint : Fingerprint
  startsAt : Int
  endsAt : Option Int := none
  receivedAt : Nat := 0
  state : AlertState
  activeConfirmed : Option Bool := none
  checkedAt : Option Nat := none
  deriving DecidableEq

/-- An alert that was delivered. Its labels name a project and an instance, if they have
    the right form. -/
structure Delivery where
  status : AlertState
  fingerprint : Fingerprint
  startsAt : Stamp
  endsAt : Stamp
  clusterId : Option String
  projectId : Option ProjectId
  instanceUid : Option String

/-- An alert that is active, as `ObservationAlerts.read` returns it. -/
structure Active where
  fingerprint : Fingerprint
  instanceUid : Option String
  startsAt : Stamp

structure System where
  alerts : List AlertRow := []
  /-- The last project of the page before. -/
  cursor : ProjectId := 0

/-! ### The webhook -/

def AlertRow.sameKey (r r' : AlertRow) : Bool :=
  r.projectId = r'.projectId && r.instanceUid = r'.instanceUid && r.fingerprint = r'.fingerprint && r.startsAt = r'.startsAt

/-- `ON CONFLICT ... DO UPDATE`: a resolved alert stays so. -/
def AlertRow.merged (r new : AlertRow) : AlertRow :=
  { r with state := if r.state = .resolved then .resolved else new.state
           endsAt := if new.state = .resolved then new.endsAt else r.endsAt
           receivedAt := new.receivedAt }

def upsert (new : AlertRow) (rows : List AlertRow) : List AlertRow :=
  if rows.any (fun r => r.sameKey new) then rows.map (fun r => if r.sameKey new then r.merged new else r) else rows ++ [new]

/-- One alert of a payload; none where a time is out of range. `bound` are the instances
    that are known by their identity. -/
def store (cluster : String) (bound : ProjectId → String → Bool) (now : Nat) (a : Delivery) (rows : List AlertRow) :
    Option (List AlertRow) :=
  if a.clusterId ≠ some cluster then some rows
  else match a.projectId,a.instanceUid with
  | some projectId,some instanceUid =>
    if bound projectId instanceUid then do
      let startsAt ← timestamptz a.startsAt
      let endsAt ← if a.status = .resolved then (timestamptz a.endsAt).map some else some none
      return upsert { projectId := projectId, instanceUid := instanceUid, fingerprint := a.fingerprint, startsAt := startsAt
                      endsAt := endsAt, receivedAt := now, state := a.status } rows
    else some rows
  | _,_ => some rows

/-- The alerts of a payload in their order; the first one that fails ends the request. -/
def receive (cluster : String) (bound : ProjectId → String → Bool) (now : Nat) (payload : List Delivery) (rows : List AlertRow) :
    List AlertRow :=
  match payload with
  | [] => rows
  | a :: rest =>
    match store cluster bound now a rows with
    | some rows => receive cluster bound now rest rows
    | none => rows

/-! ### The reconciliation -/

def keyText (uid : List Char) (fingerprint : Fingerprint) (time : List Char) : List Char :=
  uid ++ '/' :: (fingerprint.1 ++ '/' :: time)

/-- `${instanceUID}/${fingerprint}/${new Date(startsAt).toISOString()}`, where a missing
    identity is written as `null`. -/
def Active.key (a : Active) : List Char :=
  keyText (a.instanceUid.getD "null").toList a.fingerprint (toISOString a.startsAt.milliseconds)
def AlertRow.key (r : AlertRow) : List Char := keyText r.instanceUid.toList r.fingerprint (toChar (r.startsAt / 1000))

/-- The `UPDATE` of a project. -/
def confirm (projectId : ProjectId) (active : List Active) (now : Nat) (r : AlertRow) : AlertRow :=
  if r.projectId = projectId ∧ r.state = .firing then
    { r with activeConfirmed := some (decide (r.key ∈ active.map Active.key)), checkedAt := some now }
  else r

/-- The projects that a tick looks at. -/
def page (s : System) : List ProjectId :=
  ((((s.alerts.filter (fun r => r.state = .firing)).map (fun r => r.projectId)).filter (fun p => s.cursor < p)).eraseDups.insertionSort
    (fun p q => p ≤ q)).take 10

/-- A tick: `read` is what Alertmanager answers for a project, if it does. -/
def tick (acquired : Bool) (read : ProjectId → Option (List Active)) (now : Nat) (s : System) : System :=
  if !acquired then s
  else
    { alerts := (page s).foldl (fun rows p => match read p with
        | some active => rows.map (confirm p active now)
        | none => rows) s.alerts
      cursor := if (page s).length = 10 then (page s).getLast?.getD 0 else 0 }

inductive Label where
  | deliver (cluster : String) (bound : ProjectId → String → Bool) (now : Nat) (payload : List Delivery)
  | tick (acquired : Bool) (read : ProjectId → Option (List Active)) (now : Nat)
  /-- Resolved alerts are deleted after some time. -/
  | expire (before : Nat)

def step : Label → System → Option System
  | .deliver cluster bound now payload,s => some { s with alerts := receive cluster bound now payload s.alerts }
  | .tick acquired read now,s => some (tick acquired read now s)
  | .expire before,s => some { s with alerts := s.alerts.filter (fun r => !(r.state = .resolved && r.receivedAt < before)) }

/-! ### Rounding -/

/-- The part below the millisecond is less than 999.5 microseconds. -/
def Stamp.Below (z : Stamp) : Prop := 2 * (z.numerator * 1000000 % (z.scale * 1000)) < 1999 * z.scale

theorem rint_thousandth {n d : Nat} (positive : 0 < d) :
    (2 * (n % (d * 1000)) < 1999 * d → rint n d / 1000 = n / (d * 1000)) ∧
      (1999 * d ≤ 2 * (n % (d * 1000)) → rint n d / 1000 = n / (d * 1000) + 1) := by
  have rest := Nat.mod_mul (x := n) (a := d) (b := 1000)
  rw [← Nat.div_div_eq_div_mul]
  have below : n % d < d := Nat.mod_lt _ positive
  unfold rint
  generalize n / d = q at *
  generalize n % d = r at *
  rw [rest]
  by_cases last : q % 1000 = 999
  · rw [last]
    constructor
    · intro small
      rw [if_pos (.inl (by omega))]
    · intro large
      rw [if_neg (by omega)]
      omega
  · have fewer : d * (q % 1000) ≤ d * 998 := Nat.mul_le_mul_left d (by omega)
    constructor
    · intro _
      split <;> omega
    · intro large
      omega

theorem Stamp.scale_pos (z : Stamp) : 0 < z.scale := Nat.pow_pos (by decide)

/-- The stored time to the millisecond is the truncated one, or the next one. -/
theorem stored_milliseconds {z : Stamp} {us : Int} (stored : timestamptz z = some us) :
    (z.Below → us / 1000 = z.milliseconds) ∧ (¬z.Below → us / 1000 = z.milliseconds + 1) := by
  obtain ⟨same,next⟩ := rint_thousandth (n := z.numerator * 1000000) z.scale_pos
  have truncated : z.numerator * 1000 / z.scale = z.numerator * 1000000 / (z.scale * 1000) := by
    rw [show z.numerator * 1000000 = z.numerator * 1000 * 1000 by omega,Nat.mul_div_mul_right _ _ (by decide)]
  unfold timestamptz at stored
  split at stored
  · cases stored
  · cases stored
    unfold Stamp.Below Stamp.milliseconds
    rw [truncated]
    constructor
    · intro below
      have equal := same below
      omega
    · intro above
      have equal := next (Nat.le_of_not_lt above)
      omega

/-! ### Texts -/

theorem slash_inj {front front' back back' : List Char} (free : '/' ∉ back) (free' : '/' ∉ back')
    (same : front ++ '/' :: back = front' ++ '/' :: back') : front = front' ∧ back = back' := by
  rcases List.append_eq_append_iff.mp same with ⟨more,rfl,rest⟩ | ⟨more,rfl,rest⟩
  · cases more with
    | nil => exact ⟨(List.append_nil _).symm,(List.cons.inj rest).2⟩
    | cons c more =>
      obtain ⟨rfl,rfl⟩ := List.cons.inj rest
      exact absurd (List.mem_append_right _ List.mem_cons_self) free
  · cases more with
    | nil => exact ⟨List.append_nil _,(List.cons.inj rest).2.symm⟩
    | cons c more =>
      obtain ⟨rfl,rfl⟩ := List.cons.inj rest
      exact absurd (List.mem_append_right _ List.mem_cons_self) free'

theorem slash_fingerprint (f : Fingerprint) : '/' ∉ f.1 := by
  intro member
  have wrong := List.all_eq_true.mp f.2.1 _ member
  exact absurd wrong (by decide)

theorem keyText_inj {uid uid' : List Char} {f f' : Fingerprint} {time time' : List Char} (free : '/' ∉ time) (free' : '/' ∉ time') :
    keyText uid f time = keyText uid' f' time' ↔ uid = uid' ∧ f = f' ∧ time = time' := by
  constructor
  · intro same
    have regrouped : (uid ++ '/' :: f.1) ++ '/' :: time = (uid' ++ '/' :: f'.1) ++ '/' :: time' := by
      simpa [keyText] using same
    obtain ⟨front,times⟩ := slash_inj free free' regrouped
    obtain ⟨uids,fingerprints⟩ := slash_inj (slash_fingerprint f) (slash_fingerprint f') front
    exact ⟨uids,Subtype.ext fingerprints,times⟩
  · rintro ⟨rfl,rfl,rfl⟩
    rfl

/-- A start that both ways of writing give the same text: rounding does not reach the
    next millisecond, and the year has four digits. -/
def Stamp.Plain (z : Stamp) : Prop :=
  z.Below ∧ 1 ≤ (dateOf z.milliseconds).year ∧ (dateOf z.milliseconds).year ≤ 9999

theorem eraYear_eq (year : Int) : (eraYear year : Int) = year ↔ 1 ≤ year := by
  unfold eraYear
  split <;> omega

theorem text_plain {z : Stamp} {us : Int} (stored : timestamptz z = some us) :
    toChar (us / 1000) = toISOString z.milliseconds ↔ z.Plain := by
  obtain ⟨same,next⟩ := stored_milliseconds stored
  rw [text_eq]
  constructor
  · rintro ⟨⟨year,small⟩,_,_,time⟩
    by_cases below : z.Below
    · rw [same below,eraYear_eq] at year
      exact ⟨below,year,small⟩
    · -- the next millisecond has another time of day
      rw [next below] at time
      unfold timeOf at time
      omega
  · rintro ⟨below,positive,small⟩
    rw [same below]
    exact ⟨⟨(eraYear_eq _).mpr positive,small⟩,rfl,rfl,rfl⟩

/-! ### What is confirmed -/

/-- The names of an alert are those of a row; a missing identity reads `null`. -/
def Names (a : Active) (r : AlertRow) : Prop := a.instanceUid.getD "null" = r.instanceUid ∧ a.fingerprint = r.fingerprint

/-- An active alert is the one of the row. -/
def Matches (a : Active) (r : AlertRow) : Prop :=
  a.instanceUid = some r.instanceUid ∧ a.fingerprint = r.fingerprint ∧ timestamptz a.startsAt = some r.startsAt

/-- The row is written with the date and the time, to the millisecond, of another
    start; the year is counted in its era. -/
def WrittenAt (r : AlertRow) (ms : Int) : Prop :=
  ((eraYear (dateOf (r.startsAt / 1000)).year : Int) = (dateOf ms).year ∧ (dateOf ms).year ≤ 9999) ∧
    (dateOf (r.startsAt / 1000)).month = (dateOf ms).month ∧ (dateOf (r.startsAt / 1000)).day = (dateOf ms).day ∧
    timeOf (r.startsAt / 1000) = timeOf ms

theorem key_eq (a : Active) (r : AlertRow) : r.key = a.key ↔ Names a r ∧ WrittenAt r a.startsAt.milliseconds := by
  unfold AlertRow.key Active.key Names WrittenAt
  rw [keyText_inj (slash_toChar _) (slash_toISOString _),text_eq,String.toList_inj]
  constructor
  · rintro ⟨uid,fingerprint,time⟩
    exact ⟨⟨uid.symm,fingerprint.symm⟩,time⟩
  · rintro ⟨⟨uid,fingerprint⟩,time⟩
    exact ⟨uid.symm,fingerprint.symm,time⟩

/-- A row after a tick over a page of projects. -/
def ticked (projects : List ProjectId) (read : ProjectId → Option (List Active)) (now : Nat) (r : AlertRow) : AlertRow :=
  if r.projectId ∈ projects then
    match read r.projectId with
    | some active => confirm r.projectId active now r
    | none => r
  else r

theorem confirm_twice (p : ProjectId) (active : List Active) (now : Nat) (r : AlertRow) :
    confirm p active now (confirm p active now r) = confirm p active now r := by
  unfold confirm
  by_cases mine : r.projectId = p ∧ r.state = .firing
  · simp only [mine,and_self,if_true]
    rfl
  · simp only [mine,if_false]

theorem confirm_project (p : ProjectId) (active : List Active) (now : Nat) (r : AlertRow) :
    (confirm p active now r).projectId = r.projectId ∧ (confirm p active now r).startsAt = r.startsAt := by
  unfold confirm
  split <;> exact ⟨rfl,rfl⟩

theorem foldl_ticked (projects : List ProjectId) (read : ProjectId → Option (List Active)) (now : Nat) (rows : List AlertRow) :
    projects.foldl (fun rows p => match read p with
      | some active => rows.map (confirm p active now)
      | none => rows) rows = rows.map (ticked projects read now) := by
  induction projects generalizing rows with
  | nil =>
    have nothing : ticked [] read now = id := by
      funext r
      simp [ticked]
    simp [nothing]
  | cons p projects ih =>
    rw [List.foldl_cons,ih]
    cases answer : read p with
    | none =>
      refine List.map_congr_left (fun r _ => ?_)
      unfold ticked
      by_cases same : r.projectId = p
      · simp [same,answer]
      · simp [same]
    | some active =>
      rw [List.map_map]
      refine List.map_congr_left (fun r _ => ?_)
      rw [Function.comp_apply]
      by_cases same : r.projectId = p
      · subst same
        unfold ticked
        rw [(confirm_project _ active now r).1]
        simp only [answer,List.mem_cons,true_or,if_true,confirm_twice,ite_self]
      · have untouched : confirm p active now r = r := by simp [confirm,same]
        rw [untouched]
        simp [ticked,same]

theorem tick_alerts (read : ProjectId → Option (List Active)) (now : Nat) (s : System) :
    (tick true read now s).alerts = s.alerts.map (ticked (page s) read now) := foldl_ticked _ _ _ _

/-- A row that is looked at is confirmed exactly where an active alert of its names is
    written at the same time. -/
theorem ticked_confirmed {projects : List ProjectId} (read : ProjectId → Option (List Active)) (now : Nat) {r : AlertRow}
    {active : List Active} (turn : r.projectId ∈ projects) (firing : r.state = .firing) (answered : read r.projectId = some active) :
    ∃ confirmed, (ticked projects read now r).activeConfirmed = some confirmed ∧
      (confirmed = true ↔ ∃ a ∈ active, Names a r ∧ WrittenAt r a.startsAt.milliseconds) := by
  unfold ticked confirm
  simp only [turn,answered,firing,and_self,if_true,Option.some.injEq,exists_eq_left',decide_eq_true_eq,List.mem_map]
  constructor
  · rintro ⟨a,member,same⟩
    exact ⟨a,member,(key_eq a r).mp same.symm⟩
  · rintro ⟨a,member,alike⟩
    exact ⟨a,member,((key_eq a r).mpr alike).symm⟩

/-! ### Runs -/

/-- Every row was delivered with some start. -/
def Delivered (rows : List AlertRow) : Prop := ∀ r ∈ rows, ∃ z, timestamptz z = some r.startsAt

theorem upsert_delivered {new : AlertRow} {rows : List AlertRow} (delivered : Delivered rows)
    (accepted : ∃ z, timestamptz z = some new.startsAt) : Delivered (upsert new rows) := by
  intro r member
  unfold upsert at member
  split at member
  · obtain ⟨r',inside,rfl⟩ := List.mem_map.mp member
    split
    · exact delivered r' inside
    · exact delivered r' inside
  · rcases List.mem_append.mp member with member | member
    · exact delivered r member
    · rw [List.mem_singleton.mp member]
      exact accepted

theorem store_delivered {cluster : String} {bound : ProjectId → String → Bool} {now : Nat} {a : Delivery} {rows rows' : List AlertRow}
    (delivered : Delivered rows) (stored : store cluster bound now a rows = some rows') : Delivered rows' := by
  unfold store at stored
  split at stored
  · cases stored
    exact delivered
  split at stored
  · split at stored
    · simp only [Option.bind_eq_bind,Option.bind_eq_some_iff,Option.pure_def] at stored
      obtain ⟨startsAt,accepted,stored⟩ := stored
      split at stored
      · obtain ⟨_,_,stored⟩ := Option.bind_eq_some_iff.mp stored
        cases stored
        exact upsert_delivered delivered ⟨a.startsAt,accepted⟩
      · cases stored
        exact upsert_delivered delivered ⟨a.startsAt,accepted⟩
    · cases stored
      exact delivered
  · cases stored
    exact delivered

theorem receive_delivered {cluster : String} {bound : ProjectId → String → Bool} {now : Nat} {payload : List Delivery}
    {rows : List AlertRow} (delivered : Delivered rows) : Delivered (receive cluster bound now payload rows) := by
  induction payload generalizing rows with
  | nil => exact delivered
  | cons a rest ih =>
    unfold receive
    split
    · rename_i stored
      exact ih (store_delivered delivered stored)
    · exact delivered

theorem step_delivered {s s' : System} {l : Label} (delivered : Delivered s.alerts) (moved : step l s = some s') : Delivered s'.alerts := by
  cases l with
  | deliver cluster bound now payload =>
    cases moved
    exact receive_delivered delivered
  | tick acquired read now =>
    cases moved
    cases acquired with
    | false => exact delivered
    | true =>
      rw [tick_alerts]
      intro r member
      obtain ⟨r',inside,rfl⟩ := List.mem_map.mp member
      have kept : (ticked (page s) read now r').startsAt = r'.startsAt := by
        unfold ticked
        split
        · split
          · exact (confirm_project _ _ _ _).2
          · rfl
        · rfl
      rw [kept]
      exact delivered r' inside
  | expire before =>
    cases moved
    exact fun r member => delivered r (List.mem_filter.mp member).1

/-- Of a firing alert that a tick looks at: an active alert with the same start confirms
    it exactly where the start is plain, and one without an active alert of its own is
    unconfirmed exactly where no other one of its names is written at the same time. -/
theorem alert_identity {s : System} {r : AlertRow} (reached : Reaches step (fun _ _ => True) {} s) (row : r ∈ s.alerts)
    (firing : r.state = .firing) (turn : r.projectId ∈ page s) :
    (∃ z, timestamptz z = some r.startsAt) ∧
    (∀ read now, ticked (page s) read now r ∈ (tick true read now s).alerts) ∧
    (∀ z, timestamptz z = some r.startsAt →
      ((∀ read now active, read r.projectId = some active →
          (∃ a ∈ active, a.instanceUid = some r.instanceUid ∧ a.fingerprint = r.fingerprint ∧ a.startsAt = z) →
          (ticked (page s) read now r).activeConfirmed = some true) ↔ z.Plain)) ∧
    ∀ read now active, read r.projectId = some active → (∀ a ∈ active, ¬Matches a r) →
      ((ticked (page s) read now r).activeConfirmed = some false ↔
        ∀ a ∈ active, Names a r → ¬WrittenAt r a.startsAt.milliseconds) := by
  have delivered : Delivered s.alerts :=
    reached.invariant (I := fun s => Delivered s.alerts) (fun _ wrong => (by cases wrong)) (fun holds _ moved => step_delivered holds moved)
  refine ⟨delivered r row,fun read now => ?_,fun z stored => ⟨fun confirms => ?_,fun plain => ?_⟩,fun read now active answered _ => ?_⟩
  · rw [tick_alerts]
    exact List.mem_map.mpr ⟨r,row,rfl⟩
  · -- an alert that is like the row in everything is enough
    have set_ := confirms (fun _ => some [⟨r.fingerprint,some r.instanceUid,z⟩]) 0 _ rfl ⟨_,List.mem_cons_self,rfl,rfl,rfl⟩
    obtain ⟨confirmed,value,exactly_⟩ := ticked_confirmed
      (fun _ => some [⟨r.fingerprint,some r.instanceUid,z⟩]) 0 turn firing rfl
    rw [set_] at value
    cases value
    obtain ⟨a,member,_,written⟩ := exactly_.mp rfl
    rw [List.mem_singleton.mp member] at written
    exact (text_plain stored).mp ((text_eq _ _).mpr written)
  · rintro read now active answered ⟨a,member,uid,fingerprint,rfl⟩
    obtain ⟨confirmed,value,exactly_⟩ := ticked_confirmed read now turn firing answered
    have written : WrittenAt r a.startsAt.milliseconds := (text_eq _ _).mp ((text_plain stored).mpr plain)
    rw [value,exactly_.mpr ⟨a,member,⟨by rw [uid]; rfl,fingerprint⟩,written⟩]
  · obtain ⟨confirmed,value,exactly_⟩ := ticked_confirmed read now turn firing answered
    rw [value,Option.some.injEq,← Bool.not_eq_true,exactly_]
    constructor
    · intro none_ a member names written
      exact none_ ⟨a,member,names,written⟩
    · rintro none_ ⟨a,member,names,written⟩
      exact none_ a member names written

/-! ### A start that is rounded up -/

/-- Half a microsecond before the first millisecond of 2024 is over. -/
def lateStamp : Stamp := { year := 2024, month := 1, day := 1, hour := 0, minute := 0, fraction := [0,0,0,9,9,9,5] }
def plainStamp : Stamp := { year := 2024, month := 1, day := 1, hour := 1, minute := 0, fraction := [0,0,0,9,9,9,4,9], offset := 60 }

def smallFingerprint : Fingerprint := ⟨['a','a','1','1'],by decide⟩
def smallUid : String := "0f0e"
/-- A firing alert is delivered. -/
def delivering (z : Stamp) : Label :=
  .deliver "primary" (fun _ _ => true) 0 [⟨.firing,smallFingerprint,z,z,some "primary",some 1,some smallUid⟩]
def deliveredRow (us : Int) : AlertRow :=
  { projectId := 1, instanceUid := smallUid, fingerprint := smallFingerprint, startsAt := us, state := .firing }

theorem delivering_reached {z : Stamp} {us : Int} (stored : timestamptz z = some us) :
    Reaches step (fun _ _ => True) {} { alerts := [deliveredRow us] } := by
  refine .tail .refl trivial (l := delivering z) ?_
  show some _ = some _
  simp [receive,store,stored,upsert,deliveredRow]

theorem alert_identity_plain : plainStamp.Plain ∧ (ticked [1] (fun _ => some [⟨smallFingerprint,some smallUid,plainStamp⟩]) 0
    (deliveredRow 1704067200000999)).activeConfirmed = some true := by
  have stored : timestamptz plainStamp = some 1704067200000999 := by decide +kernel
  have plain : plainStamp.Plain := by
    unfold Stamp.Plain Stamp.Below
    decide +kernel
  have confirms := (alert_identity (delivering_reached stored) List.mem_cons_self rfl (by decide)).2.2.1 plainStamp stored
  exact ⟨plain,confirms.mpr plain (fun _ => some [⟨smallFingerprint,some smallUid,plainStamp⟩]) 0 _ rfl ⟨_,List.mem_cons_self,rfl,rfl,rfl⟩⟩

/-- The alert that is active is not confirmed. -/
theorem late_unconfirmed : ∃ s r, Reaches step (fun _ _ => True) {} s ∧ r ∈ s.alerts ∧ r.state = .firing ∧ r.projectId ∈ page s ∧
    timestamptz lateStamp = some r.startsAt ∧
    ∀ r' ∈ (tick true (fun _ => some [⟨r.fingerprint,some r.instanceUid,lateStamp⟩]) 0 s).alerts, r'.activeConfirmed = some false := by
  have stored : timestamptz lateStamp = some 1704067200001000 := by decide +kernel
  refine ⟨_,deliveredRow 1704067200001000,delivering_reached stored,List.mem_cons_self,rfl,by decide,stored,?_⟩
  decide +kernel

end Expbuild.Alerts
