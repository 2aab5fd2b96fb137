import Mathlib

/-!
`ObservationMetrics.read`: the series of an instance over a window, from the answer of a
backend that is not trusted. Every point of the answer is checked, and the gaps between
them are made explicit on the grid of the window. A name is looked up among the
properties of an object, where names that every object inherits are found too
(`metrics_exact`).
-/
namespace Expbuild.Metrics

/-! ### Windows -/

inductive Window where
  | h1 | h6 | h24
  deriving DecidableEq,Repr
inductive Group where
  | capacity | lookups | resources | performance
  deriving DecidableEq,Repr

structure Range where
  first : Int
  last : Int
  step : Int
  deriving DecidableEq,Repr

/-- The seconds of a window, and between two of its points. -/
def Window.seconds : Window → Int × Int
  | .h1 => (3600,60)
  | .h6 => (21600,120)
  | .h24 => (86400,300)
def bounds (window : Window) (now : Int) : Range :=
  let (seconds,step) := window.seconds
  let last := now / 1000 / step * step
  ⟨last - seconds,last,step⟩

/-- The points of a window. -/
def grid (range : Range) : List Int :=
  (List.range ((range.last - range.first) / range.step + 1).toNat).map (fun i : Nat => range.first + i * range.step)

/-! ### What is asked for -/

structure Target where
  projectId : String
  instanceUID : String
  ns : String
  template : String
  version : String
  deriving DecidableEq,Repr

/-- `/^[a-zA-Z0-9-]{1,63}$/` -/
def identity (text : String) : Bool :=
  1 ≤ text.toList.length && text.toList.length ≤ 63 && text.toList.all (fun c =>
    ('a' ≤ c && c ≤ 'z') || ('A' ≤ c && c ≤ 'Z') || ('0' ≤ c && c ≤ '9') || c = '-')

/-- The names and units of the series of a group, in the order of the query. -/
def descriptors (target : Target) (group : Group) : List (String × String) :=
  let gradle : Bool := target.template = "gradle-http" && target.version = "0.2.0"
  match group with
  | .capacity => [("used_bytes","bytes"),("capacity_bytes","bytes"),("entries","entries")] ++
      if gradle then [("evictions","entries/second"),("evicted_bytes","bytes/second")] else []
  | .lookups =>
    let kinds : List String := if target.template = "bazel-remote" ∧ target.version = "0.1.0" then ["ac_get","ac_contains","cas_get","cas_contains"]
      else if gradle then ["get"] else []
    kinds.flatMap (fun kind => [(kind ++ "_hit","lookups/second"),(kind ++ "_miss","lookups/second")]) ++
      kinds.map (fun kind => (kind ++ "_hit_ratio","percent"))
  | .resources => [("cpu_cores","cores"),("memory_bytes","bytes"),("restarts","restarts"),("memory_limit_bytes","bytes"),
      ("cpu_limit_cores","cores"),("throttled_seconds","seconds/second"),("volume_used_bytes","bytes"),("volume_capacity_bytes","bytes")]
  | .performance => if gradle then
      ["GET","PUT"].flatMap (fun method => [(method ++ "_requests","requests/second"),(method ++ "_errors","requests/second"),
        (method ++ "_p95","seconds")]) ++ [("read_bytes","bytes/second"),("write_bytes","bytes/second")]
    else []

/-- What every object inherits from `Object.prototype`. -/
def inheritedNames : List String :=
  ["constructor","__defineGetter__","__defineSetter__","hasOwnProperty","__lookupGetter__","__lookupSetter__","isPrototypeOf",
    "propertyIsEnumerable","toString","valueOf","__proto__","toLocaleString"]

/-- `descriptors[name]`: an own property with its unit, or an inherited one, which is
    there and has none. -/
def property (own : List (String × String)) (name : String) : Option (Option String) :=
  match own.lookup name with
  | some unit => some (some unit)
  | none => if name ∈ inheritedNames then some none else none

/-! ### What is answered -/

/-- The value of `Number(raw)`. -/
inductive Number where
  | nan
  | infinite (negative : Bool)
  | finite (value : ℚ)
  deriving DecidableEq

structure RawSeries where
  metric : List (String × String)
  values : List (Int × String)
  deriving DecidableEq,Repr
/-- An answer of the right shape. -/
structure Matrix where
  status : String
  warnings : Option (List String) := none
  resultType : String
  result : List RawSeries
  deriving DecidableEq,Repr

/-- The length of a text in UTF-16. -/
def utf16Length (text : String) : Nat := (text.toList.map (fun c => if c.toNat < 65536 then 1 else 2)).sum

/-- `matrix.parse` -/
def parses (m : Matrix) : Bool :=
  m.status = "success" && m.warnings.all (fun warnings => warnings = []) && m.resultType = "matrix" && m.result.length ≤ 20 &&
    m.result.all (fun s => s.metric.all (fun entry => utf16Length entry.2 ≤ 150) && s.values.length ≤ 361 &&
      s.values.all (fun value => utf16Length value.2 ≤ 64))

inductive State where
  | unsupported | noData | stale | ok
  deriving DecidableEq,Repr
structure Series where
  name : String
  unit : Option String
  points : List (Int × Option ℚ)
  deriving DecidableEq
structure Reading where
  state : State
  group : Group
  range : Range
  observedAt : Option Int := none
  series : List Series
  deriving DecidableEq

/-! ### The checks -/

/-- What `trim` removes. -/
def whitespace (c : Char) : Bool :=
  let n := c.toNat
  (9 ≤ n && n ≤ 13) || n = 32 || n = 160 || n = 0x1680 || (0x2000 ≤ n && n ≤ 0x200a) || n = 0x2028 || n = 0x2029 || n = 0x202f ||
    n = 0x205f || n = 0x3000 || n = 0xfeff
def blank (raw : String) : Bool := raw.toList.all whitespace
def unordered : List String := ["NaN","+Inf","-Inf"]

section
variable (number : String → Number)

/-- The value of a point, or null where it is no number. -/
def readValue (raw : String) : Except String (Option ℚ) :=
  if raw ∈ unordered then .ok none
  else if blank raw then .error "Invalid metric value"
  else match number raw with
  | .finite value => if value < 0 then .error "Invalid metric value" else .ok (some value)
  | _ => .error "Invalid metric value"

/-- The points of a series after `previous`, and the time of the latest value. -/
def readPoints (range : Range) (previous latest : Int) : List (Int × String) → Except String (List (Int × Option ℚ) × Int)
  | [] => .ok ([],latest)
  | (time,raw) :: rest => do
    if time < range.first ∨ range.last < time ∨ time ≤ previous ∨ (time - range.first) % range.step ≠ 0 then
      throw "Invalid metric timestamp"
    let value ← readValue number raw
    let (points,latest) ← readPoints range time (if value.isSome then max latest time else latest) rest
    return ((time,value) :: points,latest)

/-- `new Map(points)`: the last entry of a key counts. -/
def byTime (points : List (Int × Option ℚ)) (time : Int) : Option ℚ := (points.reverse.lookup time).join

def nameOf (s : RawSeries) : String := (s.metric.lookup "series").getD ""

/-- The series of an answer, one after the other. -/
def readSeries (own : List (String × String)) (range : Range) (names : List String) (latest : Int) :
    List RawSeries → Except String (List Series × Int)
  | [] => .ok ([],latest)
  | s :: rest => do
    if nameOf s = "" ∨ property own (nameOf s) = none ∨ nameOf s ∈ names ∨ s.metric.any (fun entry => entry.1 ≠ "series") = true then
      throw "Unexpected metric series"
    let (points,latest) ← readPoints number range (range.first - 1) latest s.values
    let (others,latest) ← readSeries own range (nameOf s :: names) latest rest
    return (⟨nameOf s,(property own (nameOf s)).join,(grid range).map (fun time => (time,byTime points time))⟩ :: others,latest)

/-- `response` is what the backend answers, if it does and the shape is right. -/
def read (target : Target) (group : Group) (window : Window) (now : Int) (response : Option Matrix) : Except String Reading :=
  if (identity target.projectId && identity target.instanceUID) = false then throw "Invalid identity"
  else
    let range := bounds window now
    if group = .resources ∧ identity target.ns = false then throw "Invalid identity"
    else
      let own := descriptors target group
      if own = [] then return { state := .unsupported, group := group, range := range, series := [] }
      else
        match response with
        | none => throw "Observation backend unavailable"
        | some data =>
          if parses data = false then throw "Invalid response"
          else do
            let (series,latest) ← readSeries number own range [] 0 data.result
            let state : State := if latest = 0 then .noData else if latest < range.last - range.step * 2 then .stale else .ok
            return { state := state, group := group, range := range, observedAt := if latest = 0 then none else some latest, series := series }

/-! ### What an answer says -/

theorem bind_eq_ok {ε α β : Type} {x : Except ε α} {f : α → Except ε β} {r : β} :
    (x >>= f) = .ok r ↔ ∃ a, x = .ok a ∧ f a = .ok r := by
  cases x with
  | error e => exact ⟨fun wrong => (by cases wrong),fun ⟨_,wrong,_⟩ => (by cases wrong)⟩
  | ok a => exact ⟨fun done => ⟨a,rfl,done⟩,fun ⟨_,same,done⟩ => (by cases same; exact done)⟩

/-- A text stands for a value. -/
def Stands (raw : String) (value : ℚ) : Prop :=
  raw ∉ unordered ∧ blank raw = false ∧ number raw = .finite value ∧ 0 ≤ value
def Legible (raw : String) : Prop := raw ∈ unordered ∨ ∃ value, Stands number raw value

theorem readValue_ok {raw : String} {value : Option ℚ} (done : readValue number raw = .ok value) :
    Legible number raw ∧ ∀ v, value = some v ↔ Stands number raw v := by
  unfold readValue at done
  split at done
  · rename_i special
    cases done
    refine ⟨.inl special,fun v => ⟨fun wrong => (by cases wrong),fun stands => absurd special stands.1⟩⟩
  · rename_i ordinary
    split at done
    · cases done
    · rename_i filled
      rw [Bool.not_eq_true] at filled
      split at done
      · rename_i v finite
        split at done
        · cases done
        · rename_i positive
          cases done
          refine ⟨.inr ⟨v,ordinary,filled,finite,not_lt.mp positive⟩,fun w => ⟨?_,?_⟩⟩
          · intro same
            cases same
            exact ⟨ordinary,filled,finite,not_lt.mp positive⟩
          · intro stands
            have same := finite.symm.trans stands.2.2.1
            cases same
            rfl
      · cases done

theorem readValue_total {raw : String} (legible : Legible number raw) : ∃ value, readValue number raw = .ok value := by
  unfold readValue
  by_cases special : raw ∈ unordered
  · exact ⟨none,if_pos special⟩
  · obtain wrong | ⟨v,_,filled,finite,positive⟩ := legible
    · exact absurd wrong special
    · exact ⟨some v,by simp [special,filled,finite,not_lt.mpr positive]⟩

/-- The points come in order, on the grid and after `previous`. -/
def Timely (range : Range) (previous : Int) (values : List (Int × String)) : Prop :=
  (∀ p ∈ values,range.first ≤ p.1 ∧ p.1 ≤ range.last ∧ previous < p.1 ∧ (p.1 - range.first) % range.step = 0) ∧
    values.Pairwise (fun p q => p.1 < q.1)

theorem timely_cons {range : Range} {previous time : Int} {raw : String} {rest : List (Int × String)} :
    Timely range previous ((time,raw) :: rest) ↔
      ¬(time < range.first ∨ range.last < time ∨ time ≤ previous ∨ (time - range.first) % range.step ≠ 0) ∧
        Timely range time rest := by
  constructor
  · rintro ⟨each,sorted⟩
    obtain ⟨later,sorted⟩ := List.pairwise_cons.mp sorted
    obtain ⟨low,high,next,aligned⟩ := each _ List.mem_cons_self
    refine ⟨?_,fun p member => ?_,sorted⟩
    · push Not
      exact ⟨low,high,next,aligned⟩
    · obtain ⟨low,high,_,aligned⟩ := each p (List.mem_cons_of_mem _ member)
      exact ⟨low,high,later p member,aligned⟩
  · rintro ⟨fits,each,sorted⟩
    push Not at fits
    refine ⟨fun p member => ?_,List.pairwise_cons.mpr ⟨fun p member => (each p member).2.2.1,sorted⟩⟩
    obtain rfl | member := List.mem_cons.mp member
    · exact fits
    · obtain ⟨low,high,next,aligned⟩ := each p member
      exact ⟨low,high,by have := fits.2.2.1; omega,aligned⟩

/-- The latest of some times, from one that was the latest before. -/
def Latest (valued : Int → Prop) (base newest : Int) : Prop :=
  base ≤ newest ∧ (∀ t,valued t → t ≤ newest) ∧ (newest = base ∨ valued newest)

theorem Latest.trans {first second both : Int → Prop} {a b c : Int} (left : Latest first a b) (right : Latest second b c)
    (either : ∀ t,both t ↔ first t ∨ second t) : Latest both a c := by
  obtain ⟨low,above,last⟩ := left
  obtain ⟨low',above',last'⟩ := right
  refine ⟨low.trans low',fun t valued => ?_,?_⟩
  · obtain early | late := (either t).mp valued
    · exact (above t early).trans low'
    · exact above' t late
  · obtain rfl | late := last'
    · exact last.imp id (fun early => (either _).mpr (.inl early))
    · exact .inr ((either _).mpr (.inr late))

theorem Latest.none {valued : Int → Prop} (empty : ∀ t,¬valued t) (a : Int) : Latest valued a a :=
  ⟨le_refl a,fun t wrong => absurd wrong (empty t),.inl rfl⟩

/-- The times at which points have values. -/
def Valued (values : List (Int × String)) (time : Int) : Prop := ∃ raw v, (time,raw) ∈ values ∧ Stands number raw v

/-- A point is read as it was sent. -/
def Same (sent : Int × String) (point : Int × Option ℚ) : Prop :=
  point.1 = sent.1 ∧ ∀ v, point.2 = some v ↔ Stands number sent.2 v

theorem valued_cons {time : Int} {raw : String} {rest : List (Int × String)} (t : Int) :
    Valued number ((time,raw) :: rest) t ↔ (t = time ∧ ∃ v, Stands number raw v) ∨ Valued number rest t := by
  constructor
  · rintro ⟨text,v,member,stands⟩
    obtain same | member := List.mem_cons.mp member
    · cases same
      exact .inl ⟨rfl,v,stands⟩
    · exact .inr ⟨text,v,member,stands⟩
  · rintro (⟨rfl,v,stands⟩ | ⟨text,v,member,stands⟩)
    · exact ⟨raw,v,List.mem_cons_self,stands⟩
    · exact ⟨text,v,List.mem_cons_of_mem _ member,stands⟩

theorem readValue_latest {raw : String} {value : Option ℚ} (done : readValue number raw = .ok value) (time latest : Int) :
    Latest (fun t => t = time ∧ ∃ v, Stands number raw v) latest (if value.isSome then max latest time else latest) := by
  have stands := (readValue_ok number done).2
  cases value with
  | none => exact Latest.none (fun t ⟨_,v,wrong⟩ => (by cases (stands v).mpr wrong)) latest
  | some v =>
    refine ⟨le_max_left _ _,fun t ⟨same,_⟩ => same ▸ le_max_right _ _,?_⟩
    obtain below | above := le_total time latest
    · exact .inl (max_eq_left below)
    · exact .inr ⟨max_eq_right above,v,(stands v).mp rfl⟩

theorem readPoints_ok {range : Range} {values : List (Int × String)} {previous latest newest : Int} {points : List (Int × Option ℚ)}
    (done : readPoints number range previous latest values = .ok (points,newest)) :
    Timely range previous values ∧ (∀ p ∈ values,Legible number p.2) ∧ List.Forall₂ (Same number) values points ∧
      Latest (Valued number values) latest newest := by
  induction values generalizing previous latest points with
  | nil =>
    cases done
    exact ⟨⟨fun _ wrong => (by cases wrong),.nil⟩,fun _ wrong => (by cases wrong),.nil,.none (fun t ⟨_,_,wrong,_⟩ => (by cases wrong)) _⟩
  | cons p rest ih =>
    obtain ⟨time,raw⟩ := p
    rw [readPoints] at done
    split at done
    · cases done
    · rename_i fits
      obtain ⟨value,read,done⟩ := bind_eq_ok.mp done
      obtain ⟨⟨points',newest'⟩,others,done⟩ := bind_eq_ok.mp done
      cases done
      obtain ⟨timely,legible,same,last⟩ := ih others
      obtain ⟨first,stands⟩ := readValue_ok number read
      exact ⟨timely_cons.mpr ⟨fits,timely⟩,List.forall_mem_cons.mpr ⟨first,legible⟩,.cons ⟨rfl,stands⟩ same,
        (readValue_latest number read time latest).trans last (valued_cons number)⟩

theorem readPoints_total {range : Range} {values : List (Int × String)} {previous : Int} (latest : Int)
    (timely : Timely range previous values) (legible : ∀ p ∈ values,Legible number p.2) :
    ∃ found, readPoints number range previous latest values = .ok found := by
  induction values generalizing previous latest with
  | nil => exact ⟨_,rfl⟩
  | cons p rest ih =>
    obtain ⟨time,raw⟩ := p
    obtain ⟨fits,timely⟩ := timely_cons.mp timely
    obtain ⟨first,legible⟩ := List.forall_mem_cons.mp legible
    obtain ⟨value,read⟩ := readValue_total number first
    obtain ⟨found,others⟩ := ih (if value.isSome then max latest time else latest) timely legible
    refine ⟨((time,value) :: found.1,found.2),?_⟩
    rw [readPoints,if_neg fits]
    exact bind_eq_ok.mpr ⟨value,read,bind_eq_ok.mpr ⟨found,others,rfl⟩⟩

theorem mem_grid {range : Range} (positive : 0 < range.step) (t : Int) :
    t ∈ grid range ↔ range.first ≤ t ∧ t ≤ range.last ∧ (t - range.first) % range.step = 0 := by
  unfold grid
  simp only [List.mem_map,List.mem_range]
  constructor
  · rintro ⟨i,small,rfl⟩
    have steps : (i : Int) * range.step ≤ range.last - range.first := (Int.le_ediv_iff_mul_le positive).mp (by omega)
    have start : 0 ≤ (i : Int) * range.step := Int.mul_nonneg (by omega) positive.le
    exact ⟨by omega,by omega,by simp⟩
  · rintro ⟨low,high,aligned⟩
    have steps : (t - range.first) / range.step * range.step = t - range.first :=
      Int.ediv_mul_cancel (Int.dvd_of_emod_eq_zero aligned)
    have start : 0 ≤ (t - range.first) / range.step := Int.ediv_nonneg (by omega) positive.le
    have most : (t - range.first) / range.step ≤ (range.last - range.first) / range.step :=
      Int.ediv_le_ediv positive (by omega)
    refine ⟨((t - range.first) / range.step).toNat,by omega,?_⟩
    rw [Int.toNat_of_nonneg start,steps]
    omega

theorem byTime_iff {points : List (Int × Option ℚ)} (sorted : points.Pairwise (fun p q => p.1 < q.1)) (t : Int) (v : ℚ) :
    byTime points t = some v ↔ (t,some v) ∈ points := by
  unfold byTime
  constructor
  · intro found
    obtain ⟨value,looked,rfl⟩ : ∃ value, points.reverse.lookup t = some value ∧ value = some v := by
      cases looked : points.reverse.lookup t with
      | none => simp [looked] at found
      | some value => exact ⟨value,rfl,by simpa [looked] using found⟩
    obtain ⟨before,after,rows,_⟩ := List.lookup_eq_some_iff.mp looked
    exact List.mem_reverse.mp (rows ▸ by simp)
  · intro member
    obtain ⟨before,after,rows⟩ := List.append_of_mem member
    subst rows
    have later : ∀ q ∈ after,t < q.1 := (List.pairwise_cons.mp (List.pairwise_append.mp sorted).2.1).1
    have looked : (before ++ (t,some v) :: after).reverse.lookup t = some (some v) := by
      refine List.lookup_eq_some_iff.mpr ⟨after.reverse,before.reverse,by simp,fun q inside => ?_⟩
      have := later q (List.mem_reverse.mp inside)
      exact bne_iff_ne.mpr (by omega)
    rw [looked]
    rfl

theorem same_sorted {values : List (Int × String)} {points : List (Int × Option ℚ)} (same : List.Forall₂ (Same number) values points)
    (sorted : values.Pairwise (fun p q => p.1 < q.1)) : points.Pairwise (fun p q => p.1 < q.1) := by
  have times : points.map Prod.fst = values.map Prod.fst := by
    induction same with
    | nil => rfl
    | cons first _ ih => rw [List.map_cons,List.map_cons,first.1,ih (List.pairwise_cons.mp sorted).2]
  have each : (values.map Prod.fst).Pairwise (· < ·) := List.pairwise_map.mpr sorted
  exact List.pairwise_map.mp (times ▸ each)

theorem same_values {values : List (Int × String)} {points : List (Int × Option ℚ)} (same : List.Forall₂ (Same number) values points)
    (t : Int) (v : ℚ) : (t,some v) ∈ points ↔ ∃ raw, (t,raw) ∈ values ∧ Stands number raw v := by
  induction same with
  | nil => exact ⟨fun wrong => (by cases wrong),fun ⟨_,wrong,_⟩ => (by cases wrong)⟩
  | @cons p q values points first _ ih =>
    obtain ⟨time,raw⟩ := p
    obtain ⟨time',value⟩ := q
    obtain ⟨rfl,stands⟩ := first
    simp only [List.mem_cons,Prod.mk.injEq,ih]
    constructor
    · rintro (⟨rfl,rfl⟩ | ⟨raw',member,stands'⟩)
      · exact ⟨raw,.inl ⟨rfl,rfl⟩,(stands v).mp rfl⟩
      · exact ⟨raw',.inr member,stands'⟩
    · rintro ⟨raw',⟨rfl,rfl⟩ | member,stands'⟩
      · exact .inl ⟨rfl,((stands v).mpr stands').symm⟩
      · exact .inr ⟨raw',member,stands'⟩

/-! ### What is accepted -/

/-- The checks of one series of an answer. -/
structure Proper (own : List (String × String)) (range : Range) (s : RawSeries) : Prop where
  named : nameOf s ≠ ""
  known : property own (nameOf s) ≠ none
  bare : ∀ entry ∈ s.metric,entry.1 = "series"
  timely : Timely range (range.first - 1) s.values
  legible : ∀ p ∈ s.values,Legible number p.2

/-- A series of the answer, and what is shown for it: a point for every time of the grid,
    with the value that was sent. -/
structure Shown (range : Range) (s : RawSeries) (out : Series) : Prop where
  named : out.name = nameOf s
  complete : out.points.map Prod.fst = grid range
  values : ∀ t v, (t,some v) ∈ out.points ↔ ∃ raw, (t,raw) ∈ s.values ∧ Stands number raw v

theorem shown {own : List (String × String)} {range : Range} {s : RawSeries} {latest newest : Int} {points : List (Int × Option ℚ)}
    (positive : 0 < range.step) (done : readPoints number range (range.first - 1) latest s.values = .ok (points,newest)) :
    Shown number range s ⟨nameOf s,(property own (nameOf s)).join,(grid range).map (fun time => (time,byTime points time))⟩ := by
  obtain ⟨timely,_,same,_⟩ := readPoints_ok number done
  have looked := byTime_iff (same_sorted number same timely.2)
  refine ⟨rfl,?_,fun t v => ?_⟩
  · rw [List.map_map]
    exact List.map_id _
  · simp only [List.mem_map,Prod.mk.injEq]
    constructor
    · rintro ⟨time,_,rfl,found⟩
      exact (same_values number same time v).mp ((looked time v).mp found)
    · rintro ⟨raw,member,stands⟩
      obtain ⟨low,high,_,aligned⟩ := timely.1 _ member
      exact ⟨t,(mem_grid positive t).mpr ⟨low,high,aligned⟩,rfl,
        (looked t v).mpr ((same_values number same t v).mpr ⟨raw,member,stands⟩)⟩

/-- The times at which an answer has values. -/
def Dated (result : List RawSeries) (time : Int) : Prop := ∃ s ∈ result,Valued number s.values time

theorem readSeries_ok {own : List (String × String)} {range : Range} {result : List RawSeries} {names : List String}
    {latest newest : Int} {series : List Series} (positive : 0 < range.step)
    (done : readSeries number own range names latest result = .ok (series,newest)) :
    (∀ s ∈ result,Proper number own range s) ∧ (∀ s ∈ result,nameOf s ∉ names) ∧ (result.map nameOf).Nodup ∧
      List.Forall₂ (Shown number range) result series ∧ Latest (Dated number result) latest newest := by
  induction result generalizing names latest series with
  | nil =>
    cases done
    exact ⟨fun _ wrong => (by cases wrong),fun _ wrong => (by cases wrong),.nil,.nil,.none (fun t ⟨_,wrong,_⟩ => (by cases wrong)) _⟩
  | cons s rest ih =>
    rw [readSeries] at done
    split at done
    · cases done
    · rename_i fits
      push Not at fits
      obtain ⟨named,known,fresh,bare⟩ := fits
      obtain ⟨⟨points,latest'⟩,read,done⟩ := bind_eq_ok.mp done
      obtain ⟨⟨others,newest'⟩,tail,done⟩ := bind_eq_ok.mp done
      cases done
      obtain ⟨proper,distinct,nodup,each,last⟩ := ih tail
      obtain ⟨timely,legible,_,first⟩ := readPoints_ok number read
      refine ⟨?_,?_,?_,.cons (shown number positive read) each,?_⟩
      · refine List.forall_mem_cons.mpr ⟨⟨named,known,?_,timely,legible⟩,proper⟩
        simpa using bare
      · exact List.forall_mem_cons.mpr ⟨fresh,fun q member inside => distinct q member (List.mem_cons_of_mem _ inside)⟩
      · refine List.nodup_cons.mpr ⟨fun again => ?_,nodup⟩
        obtain ⟨q,member,same⟩ := List.mem_map.mp again
        exact distinct q member (same ▸ List.mem_cons_self)
      · exact first.trans last (fun t => by simp [Dated])

theorem readSeries_total {own : List (String × String)} {range : Range} {result : List RawSeries} {names : List String} (latest : Int)
    (proper : ∀ s ∈ result,Proper number own range s) (fresh : ∀ s ∈ result,nameOf s ∉ names) (distinct : (result.map nameOf).Nodup) :
    ∃ found, readSeries number own range names latest result = .ok found := by
  induction result generalizing names latest with
  | nil => exact ⟨_,rfl⟩
  | cons s rest ih =>
    obtain ⟨first,proper⟩ := List.forall_mem_cons.mp proper
    obtain ⟨unused,fresh⟩ := List.forall_mem_cons.mp fresh
    obtain ⟨single,distinct⟩ := List.nodup_cons.mp distinct
    obtain ⟨⟨points,latest'⟩,read⟩ := readPoints_total number latest first.timely first.legible
    obtain ⟨found,tail⟩ := @ih (nameOf s :: names) latest' proper (fun q member again => by
      obtain same | again := List.mem_cons.mp again
      · exact single (List.mem_map.mpr ⟨q,member,same⟩)
      · exact fresh q member again) distinct
    refine ⟨(⟨nameOf s,(property own (nameOf s)).join,(grid range).map (fun time => (time,byTime points time))⟩ :: found.1,found.2),?_⟩
    have bare : ¬s.metric.any (fun entry => entry.1 ≠ "series") = true := by simpa using first.bare
    rw [readSeries,if_neg (not_or.mpr ⟨first.named,not_or.mpr ⟨first.known,not_or.mpr ⟨unused,bare⟩⟩⟩)]
    exact bind_eq_ok.mpr ⟨_,read,bind_eq_ok.mpr ⟨found,tail,rfl⟩⟩

/-! ### Exactness -/

/-- An answer has a value for a name at a time. -/
def Had (m : Matrix) (name : String) (time : Int) (value : ℚ) : Prop :=
  ∃ s ∈ m.result, nameOf s = name ∧ ∃ raw, (time,raw) ∈ s.values ∧ Stands number raw value

/-- What is asked for, and nothing else, with a point for every time of the grid. -/
structure Exact (own : List (String × String)) (range : Range) (m : Matrix) (r : Reading) : Prop where
  distinct : (r.series.map Series.name).Nodup
  requested : ∀ out ∈ r.series,out.name ∈ own.map Prod.fst
  complete : ∀ out ∈ r.series,out.points.map Prod.fst = grid range
  values : ∀ out ∈ r.series,∀ t v,(t,some v) ∈ out.points ↔ Had number m out.name t v
  state : (r.state = .noData ∧ ∀ t,¬Dated number m.result t) ∨ ∃ newest, Dated number m.result newest ∧
    (∀ t,Dated number m.result t → t ≤ newest) ∧ r.state = if newest < range.last - range.step * 2 then .stale else .ok

/-- The identities of the target have the right form. -/
def Addressed (target : Target) (group : Group) : Prop :=
  identity target.projectId = true ∧ identity target.instanceUID = true ∧ (group = .resources → identity target.ns = true)

/-- An answer that passes every check. -/
structure Accepted (own : List (String × String)) (range : Range) (m : Matrix) : Prop where
  parsed : parses m = true
  proper : ∀ s ∈ m.result,Proper number own range s
  distinct : (m.result.map nameOf).Nodup

/-- No series is named like what every object inherits, and where there are values, one
    is later than the epoch, which stands for none. -/
def Ordinary (m : Matrix) : Prop :=
  (∀ s ∈ m.result,nameOf s ∉ inheritedNames) ∧ ((∃ t, Dated number m.result t) → ∃ t, 0 < t ∧ Dated number m.result t)

theorem bounds_step (window : Window) (now : Int) : 0 < (bounds window now).step := by
  cases window <;> simp [bounds,Window.seconds]

theorem inherited_foreign (target : Target) (group : Group) {name : String} (inherited : name ∈ inheritedNames) :
    name ∉ (descriptors target group).map Prod.fst := by
  have none_ : ∀ own : List (String × String), (∀ name ∈ inheritedNames,name ∉ own.map Prod.fst) → name ∉ own.map Prod.fst :=
    fun own disjoint => disjoint name inherited
  cases group with
  | capacity =>
    simp only [descriptors]
    split <;> exact none_ _ (by decide)
  | lookups =>
    simp only [descriptors]
    split
    · exact none_ _ (by decide)
    · split <;> exact none_ _ (by decide)
  | resources =>
    simp only [descriptors]
    exact none_ _ (by decide)
  | performance =>
    simp only [descriptors]
    split <;> exact none_ _ (by decide)

theorem property_own {own : List (String × String)} {name : String} (known : property own name ≠ none)
    (plain : name ∉ inheritedNames) : name ∈ own.map Prod.fst := by
  unfold property at known
  split at known
  · rename_i unit found
    obtain ⟨before,after,rows,_⟩ := List.lookup_eq_some_iff.mp found
    exact List.mem_map.mpr ⟨(name,unit),by simp [rows],rfl⟩
  · rw [if_neg plain] at known
    exact absurd rfl known

theorem read_ok {target : Target} {group : Group} {window : Window} {now : Int} {response : Option Matrix} {r : Reading}
    (asked : descriptors target group ≠ []) (done : read number target group window now response = .ok r) :
    Addressed target group ∧ ∃ m, response = some m ∧ Accepted number (descriptors target group) (bounds window now) m ∧
      List.Forall₂ (Shown number (bounds window now)) m.result r.series ∧ ∃ newest, Latest (Dated number m.result) 0 newest ∧
        r.state = if newest = 0 then .noData
          else if newest < (bounds window now).last - (bounds window now).step * 2 then .stale else .ok := by
  unfold read at done
  split at done
  · cases done
  · rename_i identified
    simp only [Bool.not_eq_false,Bool.and_eq_true] at identified
    split at done
    · cases done
    · rename_i placed
      rw [if_neg asked] at done
      split at done
      · cases done
      · rename_i m
        split at done
        · cases done
        · rename_i parsed
          obtain ⟨⟨series,newest⟩,found,done⟩ := bind_eq_ok.mp done
          cases done
          obtain ⟨proper,_,distinct,each,last⟩ := readSeries_ok number (bounds_step window now) found
          refine ⟨⟨identified.1,identified.2,fun resources => ?_⟩,m,rfl,⟨by simpa using parsed,proper,distinct⟩,each,newest,last,rfl⟩
          exact Bool.not_eq_false _ |>.mp (fun wrong => placed ⟨resources,wrong⟩)

theorem read_total {target : Target} {group : Group} {window : Window} {now : Int} {m : Matrix}
    (asked : descriptors target group ≠ []) (addressed : Addressed target group)
    (accepted : Accepted number (descriptors target group) (bounds window now) m) :
    ∃ r, read number target group window now (some m) = .ok r := by
  obtain ⟨project,instance_,placed⟩ := addressed
  obtain ⟨⟨series,newest⟩,found⟩ := 
    @readSeries_total number _ _ _ [] 0 accepted.proper (fun _ _ wrong => (by cases wrong)) accepted.distinct
  have here : ¬(group = .resources ∧ identity target.ns = false) := fun ⟨resources,wrong⟩ => by
    rw [placed resources] at wrong
    cases wrong
  have parsed : ¬parses m = false := by rw [accepted.parsed]; decide
  unfold read
  rw [if_neg (by simp [project,instance_])]
  simp only [if_neg here,if_neg asked,if_neg parsed,found]
  exact ⟨_,rfl⟩

theorem shown_names {range : Range} {result : List RawSeries} {series : List Series}
    (each : List.Forall₂ (Shown number range) result series) : series.map Series.name = result.map nameOf := by
  induction each with
  | nil => rfl
  | cons first _ ih => rw [List.map_cons,List.map_cons,first.named,ih]

theorem shown_of {range : Range} {result : List RawSeries} {series : List Series}
    (each : List.Forall₂ (Shown number range) result series) {out : Series} (member : out ∈ series) :
    ∃ s ∈ result, Shown number range s out := by
  induction each with
  | nil => cases member
  | cons first _ ih =>
    obtain rfl | member := List.mem_cons.mp member
    · exact ⟨_,List.mem_cons_self,first⟩
    · obtain ⟨s,inside,holds⟩ := ih member
      exact ⟨s,List.mem_cons_of_mem _ inside,holds⟩

/-- A name has one series in an accepted answer. -/
theorem had_iff {m : Matrix} (distinct : (m.result.map nameOf).Nodup) {s : RawSeries} (member : s ∈ m.result) (t : Int) (v : ℚ) :
    Had number m (nameOf s) t v ↔ ∃ raw, (t,raw) ∈ s.values ∧ Stands number raw v := by
  constructor
  · rintro ⟨s',member',same,raw,inside,stands⟩
    rw [List.inj_on_of_nodup_map distinct member' member same] at inside
    exact ⟨raw,inside,stands⟩
  · rintro ⟨raw,inside,stands⟩
    exact ⟨s,member,rfl,raw,inside,stands⟩

theorem exact_of_ordinary {own : List (String × String)} {range : Range} {m : Matrix} {r : Reading} {newest : Int}
    (accepted : Accepted number own range m) (each : List.Forall₂ (Shown number range) m.result r.series)
    (last : Latest (Dated number m.result) 0 newest)
    (state : r.state = if newest = 0 then .noData else if newest < range.last - range.step * 2 then .stale else .ok)
    (ordinary : Ordinary number m) : Exact number own range m r := by
  obtain ⟨plain,late⟩ := ordinary
  refine ⟨?_,fun out member => ?_,fun out member => ?_,fun out member t v => ?_,?_⟩
  · rw [shown_names number each]
    exact accepted.distinct
  · obtain ⟨s,inside,shows⟩ := shown_of number each member
    rw [shows.named]
    exact property_own (accepted.proper s inside).known (plain s inside)
  · obtain ⟨s,_,shows⟩ := shown_of number each member
    exact shows.complete
  · obtain ⟨s,inside,shows⟩ := shown_of number each member
    rw [shows.values,shows.named]
    exact (had_iff number accepted.distinct inside t v).symm
  · obtain ⟨_,above,reached⟩ := last
    by_cases zero : newest = 0
    · refine .inl ⟨by rw [state,if_pos zero],fun t dated => ?_⟩
      obtain ⟨t',positive,dated'⟩ := late ⟨t,dated⟩
      have := above t' dated'
      omega
    · exact .inr ⟨newest,reached.resolve_left zero,above,by rw [state,if_neg zero]⟩

theorem ordinary_of_exact {target : Target} {group : Group} {range : Range} {m : Matrix} {r : Reading} {newest : Int}
    (each : List.Forall₂ (Shown number range) m.result r.series) (last : Latest (Dated number m.result) 0 newest)
    (state : r.state = if newest = 0 then .noData else if newest < range.last - range.step * 2 then .stale else .ok)
    (whole : Exact number (descriptors target group) range m r) : Ordinary number m := by
  constructor
  · intro s member inherited
    have listed : nameOf s ∈ r.series.map Series.name := by
      rw [shown_names number each]
      exact List.mem_map_of_mem member
    obtain ⟨out,inside,named⟩ := List.mem_map.mp listed
    exact inherited_foreign target group inherited (named ▸ whole.requested out inside)
  · rintro ⟨t,dated⟩
    obtain ⟨low,_,reached⟩ := last
    by_cases zero : newest = 0
    · rw [if_pos zero] at state
      obtain ⟨_,none_⟩ | ⟨top,_,_,shown⟩ := whole.state
      · exact absurd dated (none_ t)
      · rw [state] at shown
        split at shown <;> cases shown
    · exact ⟨newest,by omega,reached.resolve_left zero⟩

/-- An answer is shown exactly unless it is accepted with a series that is named like
    what every object inherits. (A value at the epoch would count as none.) A group
    without series is not asked for. -/
theorem metrics_exact (target : Target) (group : Group) (window : Window) (now : Int) (response : Option Matrix) :
    (descriptors target group = [] → ∀ r, read number target group window now response = .ok r →
      r.state = .unsupported ∧ r.series = []) ∧
    (descriptors target group ≠ [] →
      ((∀ r, read number target group window now response = .ok r →
          ∃ m, response = some m ∧ Exact number (descriptors target group) (bounds window now) m r) ↔
        (Addressed target group → ∀ m, response = some m → Accepted number (descriptors target group) (bounds window now) m →
          Ordinary number m))) := by
  refine ⟨fun nothing r done => ?_,fun asked => ⟨?_,?_⟩⟩
  · unfold read at done
    split at done
    · cases done
    · split at done
      · cases done
      · rw [if_pos nothing] at done
        cases done
        exact ⟨rfl,rfl⟩
  · rintro whole addressed m rfl accepted
    obtain ⟨r,done⟩ := read_total number asked addressed accepted
    obtain ⟨_,m',same,_,each,newest,last,state⟩ := read_ok number asked done
    cases same
    obtain ⟨_,same,shows⟩ := whole r done
    cases same
    exact ordinary_of_exact number each last state shows
  · intro ordinary r done
    obtain ⟨addressed,m,rfl,accepted,each,newest,last,state⟩ := read_ok number asked done
    exact ⟨m,rfl,exact_of_ordinary number accepted each last state (ordinary addressed m rfl accepted)⟩

end

/-- A series that was not asked for is shown. -/
theorem foreign_shown :
    let number : String → Number := fun raw => if raw = "1" then .finite 1 else .nan
    let target : Target := ⟨"p-1","11111111-1111-4111-8111-111111111111","p-1","gradle-http","0.2.0"⟩
    let answer : Matrix := ⟨"success",none,"matrix",[⟨[("series","constructor")],[(1699999980,"1")]⟩]⟩
    ∃ r, read number target .capacity .h1 1700000000000 (some answer) = .ok r ∧ (∃ out ∈ r.series, out.name = "constructor") ∧
      ¬Exact number (descriptors target .capacity) (bounds .h1 1700000000000) answer r :=
  ⟨_,rfl,⟨_,List.mem_cons_self,rfl⟩,fun whole =>
    absurd (whole.requested _ List.mem_cons_self) (inherited_foreign _ .capacity (by decide))⟩

end Expbuild.Metrics
