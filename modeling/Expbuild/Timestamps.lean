import Mathlib

/-!
Points in time and how they are written. A day has a number, counted from the epoch,
and a date of the proleptic Gregorian calendar (`civil`, and `days` back); a time of
day has a fixed number of digits. What is written in the same way is the same time, up
to how a year is written (`text_eq`).
-/
namespace Expbuild.Timestamps

/-! ### The calendar -/

structure Civil where
  year : Int
  month : Int
  day : Int
  deriving DecidableEq,Repr

/-- The date of a day. Years begin in March here, so that the leap day is the last day
    of a year, of four years and of 400 years, and is missing at the end of a century. -/
def civil (day : Int) : Civil :=
  let shifted := day + 719468
  let inEra := shifted % 146097
  let century := if inEra / 36524 < 4 then inEra / 36524 else 3
  let inCentury := inEra - 36524 * century
  let quad := inCentury / 1461
  let inQuad := inCentury % 1461
  let year := if inQuad / 365 < 4 then inQuad / 365 else 3
  let inYear := inQuad - 365 * year
  let month := (5 * inYear + 2) / 153
  { year := 400 * (shifted / 146097) + 100 * century + 4 * quad + year + if month < 10 then 0 else 1
    month := if month < 10 then month + 3 else month - 9
    day := inYear - (153 * month + 2) / 5 + 1 }

/-- The day of a date. -/
def days (c : Civil) : Int :=
  let year := if c.month ≤ 2 then c.year - 1 else c.year
  let inEra := year % 400
  let month := if c.month ≤ 2 then c.month + 9 else c.month - 3
  146097 * (year / 400) + (365 * inEra + inEra / 4 - inEra / 100) + ((153 * month + 2) / 5 + c.day - 1) - 719468

example : civil 11016 = ⟨2000,2,29⟩ ∧ days ⟨2100,3,1⟩ = days ⟨2100,2,28⟩ + 1 := by decide

/-! ### Digits -/

def digit (n : Nat) : Char := Char.ofNat (48 + n % 10)

/-- The last digits of a number, as many as the width. -/
def padded : Nat → Nat → List Char
  | 0,_ => []
  | width + 1,n => padded width (n / 10) ++ [digit n]

@[simp] theorem padded_length (width n : Nat) : (padded width n).length = width := by
  induction width generalizing n with
  | zero => rfl
  | succ width ih => simp [padded,ih]

theorem digit_injective {m n : Nat} (same : digit m = digit n) : m % 10 = n % 10 := by
  have val : ∀ k, (digit k).toNat = 48 + k % 10 := by
    intro k
    have small : k % 10 < 10 := Nat.mod_lt _ (by decide)
    unfold digit
    generalize k % 10 = d at small ⊢
    interval_cases d <;> rfl
  have equal := congrArg Char.toNat same
  rw [val,val] at equal
  omega

theorem padded_injective {width m n : Nat} (small : m < 10 ^ width) (small' : n < 10 ^ width) (same : padded width m = padded width n) :
    m = n := by
  induction width generalizing m n with
  | zero =>
    rw [Nat.pow_zero] at small small'
    omega
  | succ width ih =>
    obtain ⟨front,last⟩ := List.append_inj' same rfl
    have low := digit_injective (List.singleton_inj.mp last)
    rw [Nat.pow_succ] at small small'
    have high := ih (by omega) (by omega) front
    omega

theorem padded_head {width n : Nat} {c : Char} {rest : List Char} (text : padded width n = c :: rest) : ∃ k, c = digit k := by
  induction width generalizing n rest with
  | zero => cases text
  | succ width ih =>
    rw [padded] at text
    cases front : padded width (n / 10) with
    | nil =>
      rw [front,List.nil_append] at text
      exact ⟨n,(List.cons.inj text).1.symm⟩
    | cons c' rest' =>
      rw [front,List.cons_append] at text
      obtain ⟨rfl,_⟩ := List.cons.inj text
      exact ih front

theorem digit_sign (n : Nat) : digit n ≠ '+' ∧ digit n ≠ '-' := by
  have small : n % 10 < 10 := Nat.mod_lt _ (by decide)
  unfold digit
  generalize n % 10 = d at small
  interval_cases d <;> decide

theorem slash_padded (width n : Nat) : '/' ∉ padded width n := by
  induction width generalizing n with
  | zero => exact List.not_mem_nil
  | succ width ih =>
    have other : digit n ≠ '/' := by
      have small : n % 10 < 10 := Nat.mod_lt _ (by decide)
      unfold digit
      generalize n % 10 = d at small
      interval_cases d <;> decide
    rw [padded,List.mem_append,List.mem_singleton,not_or]
    exact ⟨ih _,fun same => other same.symm⟩

/-! ### Texts -/

theorem civil_bounds (day : Int) : 1 ≤ (civil day).month ∧ (civil day).month ≤ 12 ∧ 1 ≤ (civil day).day ∧ (civil day).day ≤ 31 := by
  have e0 : 0 ≤ (day + 719468) % 146097 := by omega
  have e1 : (day + 719468) % 146097 < 146097 := by omega
  unfold civil
  simp only
  generalize (day + 719468) % 146097 = inEra at *
  obtain ⟨inCentury,c0,c1,rest⟩ : ∃ inCentury, 0 ≤ inCentury ∧ inCentury < 36525 ∧
      inEra - 36524 * (if inEra / 36524 < 4 then inEra / 36524 else 3) = inCentury := by
    refine ⟨_,?_,?_,rfl⟩ <;> split <;> omega
  rw [rest]
  have r0 : 0 ≤ inCentury % 1461 := by omega
  have r1 : inCentury % 1461 < 1461 := by omega
  generalize inCentury % 1461 = inQuad at *
  obtain ⟨inYear,y0,y1,rest'⟩ : ∃ inYear, 0 ≤ inYear ∧ inYear < 366 ∧
      inQuad - 365 * (if inQuad / 365 < 4 then inQuad / 365 else 3) = inYear := by
    refine ⟨_,?_,?_,rfl⟩ <;> split <;> omega
  rw [rest']
  refine ⟨?_,?_,?_,?_⟩
  · split <;> omega
  · split <;> omega
  · omega
  · omega

/-- A time is counted in milliseconds from the epoch. -/
def dateOf (ms : Int) : Civil := civil (ms / 86400000)
def timeOf (ms : Int) : Nat := (ms % 86400000).toNat

/-- What follows the year. -/
def afterYear (c : Civil) (time : Nat) : List Char :=
  '-' :: padded 2 c.month.toNat ++ ('-' :: padded 2 c.day.toNat ++ ('T' :: padded 2 (time / 3600000) ++
    (':' :: padded 2 (time / 60000 % 60) ++ (':' :: padded 2 (time / 1000 % 60) ++ ('.' :: padded 3 (time % 1000) ++ ['Z'])))))

theorem afterYear_length (c : Civil) (time : Nat) : (afterYear c time).length = 20 := by simp [afterYear]

theorem afterYear_injective {ms ms' : Int} (same : afterYear (dateOf ms) (timeOf ms) = afterYear (dateOf ms') (timeOf ms')) :
    (dateOf ms).month = (dateOf ms').month ∧ (dateOf ms).day = (dateOf ms').day ∧ timeOf ms = timeOf ms' := by
  obtain ⟨m0,m1,d0,d1⟩ := civil_bounds (ms / 86400000)
  obtain ⟨m0',m1',d0',d1'⟩ := civil_bounds (ms' / 86400000)
  have t1 : timeOf ms < 86400000 := by unfold timeOf; omega
  have t1' : timeOf ms' < 86400000 := by unfold timeOf; omega
  unfold afterYear dateOf at same
  unfold dateOf
  generalize civil (ms / 86400000) = c at *
  generalize civil (ms' / 86400000) = c' at *
  generalize timeOf ms = time at *
  generalize timeOf ms' = time' at *
  obtain ⟨month,same⟩ := List.append_inj same (by simp)
  obtain ⟨day,same⟩ := List.append_inj same (by simp)
  obtain ⟨hour,same⟩ := List.append_inj same (by simp)
  obtain ⟨minute,same⟩ := List.append_inj same (by simp)
  obtain ⟨second,same⟩ := List.append_inj same (by simp)
  obtain ⟨milli,_⟩ := List.append_inj same (by simp)
  have month_ := padded_injective (by omega) (by omega) (List.cons.inj month).2
  have day_ := padded_injective (by omega) (by omega) (List.cons.inj day).2
  have hour_ := padded_injective (by omega) (by omega) (List.cons.inj hour).2
  have minute_ := padded_injective (by omega) (by omega) (List.cons.inj minute).2
  have second_ := padded_injective (by omega) (by omega) (List.cons.inj second).2
  have milli_ := padded_injective (by omega) (by omega) (List.cons.inj milli).2
  refine ⟨by omega,by omega,by omega⟩

/-- `Date.prototype.toISOString` writes four digits, or a sign and six of them. -/
def isoYear (year : Int) : List Char :=
  if 0 ≤ year ∧ year ≤ 9999 then padded 4 year.toNat else (if year < 0 then '-' else '+') :: padded 6 year.natAbs
def toISOString (ms : Int) : List Char := isoYear (dateOf ms).year ++ afterYear (dateOf ms) (timeOf ms)

/-- The number of a year before or after Christ. -/
def eraYear (year : Int) : Nat := (if year ≤ 0 then 1 - year else year).toNat
/-- The pattern `YYYY` of `to_char`: at least four digits, and no sign. -/
def charYear (year : Int) : List Char := padded (max 4 (Nat.log 10 (eraYear year) + 1)) (eraYear year)
/-- `to_char(..., 'YYYY-MM-DD"T"HH24:MI:SS.MS"Z"')`, of milliseconds. -/
def toChar (ms : Int) : List Char := charYear (dateOf ms).year ++ afterYear (dateOf ms) (timeOf ms)

theorem year_eq (year year' : Int) : charYear year = isoYear year' ↔ (eraYear year : Int) = year' ∧ year' ≤ 9999 := by
  have positive : 1 ≤ eraYear year := by
    unfold eraYear
    split <;> omega
  unfold charYear isoYear
  constructor
  · intro same
    split at same
    · rename_i inside
      have lengths := congrArg List.length same
      rw [padded_length,padded_length] at lengths
      have small : eraYear year < 10 ^ 4 := by
        have shorter : Nat.log 10 (eraYear year) < 4 := by omega
        exact Nat.lt_pow_of_log_lt (by decide) shorter
      rw [lengths] at same
      have equal := padded_injective small (by omega) same
      omega
    · exfalso
      obtain ⟨k,digit_⟩ := padded_head same
      obtain ⟨plus,minus⟩ := digit_sign k
      split at digit_
      · exact minus digit_.symm
      · exact plus digit_.symm
  · rintro ⟨same,small⟩
    have fits : eraYear year < 10 ^ 4 := by omega
    have width : max 4 (Nat.log 10 (eraYear year) + 1) = 4 := by
      have shorter := Nat.log_lt_of_lt_pow (by omega) fits
      omega
    rw [width,if_pos (by omega),← same]
    rfl

/-- When the two ways of writing give the same text. -/
theorem text_eq (ms ms' : Int) : toChar ms = toISOString ms' ↔
    ((eraYear (dateOf ms).year : Int) = (dateOf ms').year ∧ (dateOf ms').year ≤ 9999) ∧
      (dateOf ms).month = (dateOf ms').month ∧ (dateOf ms).day = (dateOf ms').day ∧ timeOf ms = timeOf ms' := by
  rw [← year_eq]
  constructor
  · intro same
    obtain ⟨year,rest⟩ := List.append_inj' same (by rw [afterYear_length,afterYear_length])
    exact ⟨year,afterYear_injective rest⟩
  · rintro ⟨year,month,day,time⟩
    unfold toChar toISOString afterYear
    rw [year,month,day,time]

theorem slash_afterYear (c : Civil) (time : Nat) : '/' ∉ afterYear c time := by
  simp [afterYear,slash_padded]

theorem slash_toISOString (ms : Int) : '/' ∉ toISOString ms := by
  unfold toISOString isoYear
  rw [List.mem_append,not_or]
  refine ⟨?_,slash_afterYear _ _⟩
  split
  · exact slash_padded _ _
  · split <;> simp [slash_padded]

theorem slash_toChar (ms : Int) : '/' ∉ toChar ms := by
  unfold toChar charYear
  rw [List.mem_append,not_or]
  exact ⟨slash_padded _ _,slash_afterYear _ _⟩

end Expbuild.Timestamps
