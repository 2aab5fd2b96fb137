import Expbuild.Patterns

/-!
`sanitizeLog`: three replacements that take credentials out of a line of a log, a filter
for control characters, and a limit. What the replacements leave has nothing left for them
to find, unless the filter joins what stood apart or a quoted value is followed directly
by more of the line (`sanitize_stable`).
-/
namespace Expbuild.Redaction
open Expbuild.Patterns

/-- A string of JavaScript, as the units of UTF-16. -/
abbrev Text := List Nat

def ascii (s : String) : Text := s.toList.map Char.toNat

/-! ### Classes of characters -/

/-- `\s` -/
def space (c : Nat) : Bool :=
  (9 ≤ c && c ≤ 13) || c = 32 || c = 160 || c = 0x1680 || (0x2000 ≤ c && c ≤ 0x200a) || c = 0x2028 || c = 0x2029 || c = 0x202f ||
    c = 0x205f || c = 0x3000 || c = 0xfeff
/-- `\w` -/
def word (c : Nat) : Bool := (48 ≤ c && c ≤ 57) || (65 ≤ c && c ≤ 90) || c = 95 || (97 ≤ c && c ≤ 122)
/-- What `.` does not match. -/
def lineTerminator (c : Nat) : Bool := c = 10 || c = 13 || c = 0x2028 || c = 0x2029
/-- Without the flag `u`, only the letters of ASCII are the same as others by the flag `i`. -/
def fold (c : Nat) : Nat := if 65 ≤ c ∧ c ≤ 90 then c + 32 else c

/-- `[^\s",;]` -/
def token (c : Nat) : Bool := !(space c || c = 34 || c = 44 || c = 59)
/-- `[\w-]` -/
def nameUnit (c : Nat) : Bool := word c || c = 45
/-- `["']` -/
def quote (c : Nat) : Bool := c = 34 || c = 39
/-- `[:=]` -/
def operator (c : Nat) : Bool := c = 58 || c = 61
/-- `[^\s,;}]` -/
def bare (c : Nat) : Bool := !(space c || c = 44 || c = 59 || c = 125)
/-- `[^\s/@]` -/
def host (c : Nat) : Bool := !(space c || c = 47 || c = 64)
/-- `[\u0000-\u0008\u000b\u000c\u000e-\u001f]` -/
def removed (c : Nat) : Bool := c ≤ 8 || c = 11 || c = 12 || (14 ≤ c && c ≤ 31)

/-! ### The expressions -/

open Regex in
/-- `/\b(Bearer|Basic)\s+[^\s",;]+/gi` -/
def tokens : Regex Nat :=
  seq (boundary word) (seq (group (anyOf (literal fold (ascii "bearer")) [literal fold (ascii "basic")]))
    (seq (plus (one space)) (plus (one token))))

def names : List Text :=
  [ascii "password",ascii "token",ascii "authorization",ascii "cookie",ascii "secret",ascii "credential"]

open Regex in
/-- `"(?:\\.|[^"\\])*"` with the quote that is given. -/
def quoted (q : Nat) : Regex Nat :=
  seq (one (fun c => c = q)) (seq (star (alt (seq (one (fun c => c = 92)) (one (fun c => !lineTerminator c)))
    (one (fun c => !(c = q || c = 92))))) (one (fun c => c = q)))

open Regex in
/-- `((?:password|…)[\w-]*["']?\s*[:=]\s*)`, without the group. -/
def key : Regex Nat :=
  seq (anyOf (literal fold (ascii "password")) [literal fold (ascii "token"),literal fold (ascii "authorization"),
      literal fold (ascii "cookie"),literal fold (ascii "secret"),literal fold (ascii "credential")])
    (seq (star (one nameUnit)) (seq (optional (one quote)) (seq (star (one space)) (seq (one operator) (star (one space))))))

open Regex in
def secrets : Regex Nat := seq (group key) (anyOf (quoted 34) [quoted 39,plus (one bare)])

open Regex in
/-- `/https?:\/\/[^\s/@]+:[^\s/@]+@/gi` -/
def urls : Regex Nat :=
  seq (literal fold (ascii "http")) (seq (optional (literal fold (ascii "s"))) (seq (literal fold (ascii "://"))
    (seq (plus (one host)) (seq (one (fun c => c = 58)) (seq (plus (one host)) (one (fun c => c = 64)))))))

/-! ### The replacements -/

def mark : Text := ascii "[redacted]"

def redactTokens : Text → Text := replaceAll tokens (fun scheme => scheme ++ 32 :: mark)
def redactSecrets : Text → Text := replaceAll secrets (fun name => name ++ mark)
def redactUrls : Text → Text := replaceAll urls (fun _ => ascii "https://[redacted]@")

def sanitizeLog (value : Text) : Text :=
  ((redactUrls (redactSecrets (redactTokens value))).filter (fun c => !removed c)).take 4096

/-! ### What the expressions read -/

/-- What follows is not of a class. -/
def Ends (p : Nat → Bool) (l : Text) : Prop := l.head?.any p = false

instance (p : Nat → Bool) (l : Text) : Decidable (Ends p l) := inferInstanceAs (Decidable (_ = false))

theorem ends_dropWhile (p : Nat → Bool) (l : Text) : Ends p (l.dropWhile p) := by
  unfold Ends
  induction l with
  | nil => rfl
  | cons c l ih =>
    by_cases holds : p c = true
    · rwa [List.dropWhile_cons_of_pos holds]
    · rw [List.dropWhile_cons_of_neg holds]
      simpa using holds

def schemes : List Text := [ascii "bearer",ascii "basic"]
/-- `Bearer` or `Basic`, in any case. -/
def Scheme (w : Text) : Prop := w.map fold ∈ schemes

def letter (c : Nat) : Bool := (65 ≤ c && c ≤ 90) || (97 ≤ c && c ≤ 122)

/-- Only letters become letters of the lower case. -/
theorem letters_of_fold {w : Text} {words : List Text} (spelled : w.map fold ∈ words)
    (lower : ∀ name ∈ words,∀ c ∈ name,97 ≤ c ∧ c ≤ 122) : ∀ c ∈ w,letter c = true := by
  intro c member
  have inside := lower _ spelled (fold c) (List.mem_map_of_mem member)
  have letters : (65 ≤ c ∧ c ≤ 90) ∨ (97 ≤ c ∧ c ≤ 122) := by
    unfold fold at inside
    split at inside <;> omega
  simpa [letter] using letters

theorem scheme_letters {w : Text} (scheme : Scheme w) : ∀ c ∈ w,letter c = true := letters_of_fold scheme (by decide)
theorem name_letters {n : Text} (known : n.map fold ∈ names) : ∀ c ∈ n,letter c = true := letters_of_fold known (by decide)

theorem spelled_cons {w : Text} {words : List Text} (spelled : w.map fold ∈ words) (some_ : [] ∉ words) : ∃ c rest, w = c :: rest := by
  cases w with
  | nil => exact absurd spelled some_
  | cons c rest => exact ⟨c,rest,rfl⟩

theorem scheme_cons {w : Text} (scheme : Scheme w) : ∃ c rest, w = c :: rest := spelled_cons scheme (by decide)

theorem letter_word {c : Nat} (holds : letter c = true) : word c = true := by
  simp only [letter,word,Bool.or_eq_true,Bool.and_eq_true,decide_eq_true_eq] at holds ⊢
  omega

theorem reads_scheme (x y : Place Nat) :
    (Regex.group (Regex.anyOf (Regex.literal fold (ascii "bearer")) [Regex.literal fold (ascii "basic")])).Reads x y ↔
      ∃ w rest, x.rest = w ++ rest ∧ Scheme w ∧ y = ⟨w.getLast?.or x.before,rest,w⟩ :=
  (Regex.spells_words fold (ascii "bearer") [ascii "basic"]).group x y

/-- What is taken last is taken as a whole. -/
theorem plus_greedy {p : Nat → Bool} {x y : Place Nat} (done : (Regex.plus (Regex.one p)).run x some = some y) :
    Ends p y.rest := by
  obtain ⟨z,_,next⟩ := Regex.seq_sound done
  have greedy := Regex.star_greedy (k := some) (x := z) (p := p) rfl
  rw [next] at greedy
  cases greedy
  exact ends_dropWhile p z.rest

/-- A text in which a token begins. -/
def Token (before : Option Nat) (text : Text) : Prop :=
  before.any word = false ∧ ∃ w s t l, text = w ++ (s ++ t :: l) ∧ Scheme w ∧ s ≠ [] ∧ (∀ c ∈ s,space c = true) ∧ token t = true

theorem boundary_scheme {before : Option Nat} {w l : Text} (scheme : Scheme w) :
    before.any word ≠ (w ++ l).head?.any word ↔ before.any word = false := by
  obtain ⟨c,rest,rfl⟩ := scheme_cons scheme
  have first : word c = true := letter_word (scheme_letters scheme c List.mem_cons_self)
  simp [first]

theorem tokens_sound {before : Option Nat} {text : Text} {y : Place Nat} (done : tokens.exec before text = some y) :
    before.any word = false ∧ ∃ s t, text = y.captured ++ (s ++ (t ++ y.rest)) ∧ Scheme y.captured ∧ s ≠ [] ∧
      (∀ c ∈ s,space c = true) ∧ t ≠ [] ∧ (∀ c ∈ t,token c = true) ∧ Ends token y.rest := by
  obtain ⟨x1,⟨differ,rfl⟩,done⟩ := Regex.seq_sound done
  obtain ⟨x2,named,done⟩ := Regex.seq_sound done
  obtain ⟨w,rest,shape,scheme,rfl⟩ := (reads_scheme _ _).mp named
  obtain ⟨x3,spaced,done⟩ := Regex.seq_sound done
  obtain ⟨s,rest',shape',⟨some_,spaces⟩,rfl⟩ := (Regex.spells_plus space _ _).mp spaced
  have ends := plus_greedy done
  obtain ⟨x4,taken,same⟩ := Regex.run_sound _ done
  cases same
  obtain ⟨t,rest'',shape'',⟨some',all⟩,rfl⟩ := (Regex.spells_plus token _ _).mp taken
  simp only [] at shape
  subst shape
  simp only [] at shape'
  subst shape'
  have shape'' : rest' = t ++ rest'' := shape''
  subst shape''
  exact ⟨(boundary_scheme scheme).mp differ,s,t,rfl,scheme,some_,spaces,some',all,ends⟩

theorem tokens_complete {before : Option Nat} {text : Text} (holds : Token before text) : tokens.exec before text ≠ none := by
  obtain ⟨plain,w,s,t,l,rfl,scheme,some_,spaces,first⟩ := holds
  intro none_
  have reads : tokens.Reads ⟨before,w ++ (s ++ t :: l),[]⟩
      (Place.past (Place.past ⟨w.getLast?.or before,s ++ t :: l,w⟩ s (t :: l)) [t] l) :=
    ⟨_,⟨(boundary_scheme scheme).mpr plain,rfl⟩,_,(reads_scheme _ _).mpr ⟨w,_,rfl,scheme,rfl⟩,_,
      (Regex.spells_plus space _ _).mpr ⟨s,_,rfl,⟨some_,spaces⟩,rfl⟩,
      (Regex.spells_plus token _ _).mpr ⟨[t],l,rfl,⟨List.cons_ne_nil _ _,by simpa using first⟩,rfl⟩⟩
  cases Regex.run_complete tokens reads none_

/-- The name of a secret, with what stands between it and the value. -/
def Key (text : Text) : Prop :=
  ∃ n r q s o s', text = n ++ (r ++ (q ++ (s ++ o :: s'))) ∧ n.map fold ∈ names ∧ (∀ c ∈ r,nameUnit c = true) ∧
    (q = [] ∨ ∃ c, q = [c] ∧ quote c = true) ∧ (∀ c ∈ s,space c = true) ∧ operator o = true ∧ ∀ c ∈ s',space c = true

theorem spells_key : Regex.Spells key Key := by
  refine (Regex.spells_seq (Regex.spells_words fold (ascii "password") [ascii "token",ascii "authorization",ascii "cookie",
    ascii "secret",ascii "credential"]) (Regex.spells_seq (Regex.spells_star_one nameUnit) (Regex.spells_seq
      (Regex.spells_optional (Regex.spells_one quote)) (Regex.spells_seq (Regex.spells_star_one space)
        (Regex.spells_seq (Regex.spells_one operator) (Regex.spells_star_one space)))))).congr (fun taken => ?_)
  constructor
  · rintro ⟨n,_,rfl,known,r,_,rfl,units,q,_,rfl,closing,s,_,rfl,spaces,_,s',rfl,⟨o,rfl,operates⟩,spaces'⟩
    exact ⟨n,r,q,s,o,s',rfl,known,units,closing.symm,spaces,operates,spaces'⟩
  · rintro ⟨n,r,q,s,o,s',rfl,known,units,closing,spaces,operates,spaces'⟩
    exact ⟨n,_,rfl,known,r,_,rfl,units,q,_,rfl,closing.symm,s,_,rfl,spaces,[o],s',rfl,⟨o,rfl,operates⟩,spaces'⟩

/-- A quoted value begins with its quote. -/
theorem spells_quoted (q : Nat) : ∃ language, Regex.Spells (quoted q) language ∧ ∀ taken,language taken → ∃ l, taken = q :: l := by
  have unit_ : ∀ taken : Text, ((∃ a b, taken = a ++ b ∧ (∃ c, a = [c] ∧ decide (c = 92) = true) ∧
      ∃ c, b = [c] ∧ (!lineTerminator c) = true) ∨ ∃ c, taken = [c] ∧ (!(decide (c = q) || decide (c = 92))) = true) → taken ≠ [] := by
    rintro _ (⟨_,_,rfl,⟨c,rfl,_⟩,_⟩ | ⟨c,rfl,_⟩)
    · exact List.cons_ne_nil _ _
    · exact List.cons_ne_nil _ _
  refine ⟨_,Regex.spells_seq (Regex.spells_one _) (Regex.spells_seq (Regex.spells_star (Regex.spells_alt
    (Regex.spells_seq (Regex.spells_one _) (Regex.spells_one _)) (Regex.spells_one _)) unit_) (Regex.spells_one _)),?_⟩
  rintro _ ⟨_,b,rfl,⟨c,rfl,same⟩,_⟩
  exact ⟨b,by rw [of_decide_eq_true same]; rfl⟩

/-- A value begins with a unit that one without quotes may have. One that begins with
    no quote is such a value, and taken as a whole. -/
theorem value_sound {x y : Place Nat} (done : (Regex.anyOf (quoted 34) [quoted 39,.plus (.one bare)]).run x some = some y) :
    ∃ v l, x.rest = v :: l ++ y.rest ∧ y.captured = x.captured ∧ bare v = true ∧
      (quote v = false → (∀ c ∈ v :: l,bare c = true) ∧ Ends bare y.rest) := by
  have closed (q : Nat) (isQuote : quote q = true) (isBare : bare q = true) (done : (quoted q).run x some = some y) :
      ∃ v l, x.rest = v :: l ++ y.rest ∧ y.captured = x.captured ∧ bare v = true ∧
        (quote v = false → (∀ c ∈ v :: l,bare c = true) ∧ Ends bare y.rest) := by
    obtain ⟨language,spells,first⟩ := spells_quoted q
    obtain ⟨z,reads,same⟩ := Regex.run_sound _ done
    cases same
    obtain ⟨taken,rest,shape,holds,rfl⟩ := (spells x y).mp reads
    obtain ⟨l,rfl⟩ := first taken holds
    exact ⟨q,l,shape,rfl,isBare,fun wrong => absurd (isQuote.symm.trans wrong) (by decide)⟩
  simp only [Regex.anyOf,Regex.run,Option.or_eq_some_iff] at done
  obtain done | ⟨_,done | ⟨_,done⟩⟩ := done
  · exact closed 34 (by decide) (by decide) done
  · exact closed 39 (by decide) (by decide) done
  · have ends := plus_greedy done
    obtain ⟨z,reads,same⟩ := Regex.run_sound _ done
    cases same
    obtain ⟨taken,rest,shape,⟨some_,all⟩,rfl⟩ := (Regex.spells_plus bare x y).mp reads
    cases taken with
    | nil => exact absurd rfl some_
    | cons v l => exact ⟨v,l,shape,rfl,all v List.mem_cons_self,fun _ => ⟨all,ends⟩⟩

theorem secrets_sound {before : Option Nat} {text : Text} {y : Place Nat} (done : secrets.exec before text = some y) :
    Key y.captured ∧ ∃ v l, text = y.captured ++ (v :: l ++ y.rest) ∧ bare v = true ∧
      (quote v = false → (∀ c ∈ v :: l,bare c = true) ∧ Ends bare y.rest) := by
  obtain ⟨x,named,done⟩ := Regex.seq_sound done
  obtain ⟨k,rest,shape,isKey,rfl⟩ := (spells_key.group _ _).mp named
  obtain ⟨v,l,shape',captured,isBare,whole⟩ := value_sound done
  rw [captured]
  exact ⟨isKey,v,l,shape.trans (congrArg _ shape'),isBare,whole⟩

theorem secrets_complete {before : Option Nat} {k l : Text} {v : Nat} (isKey : Key k) (isBare : bare v = true) :
    secrets.exec before (k ++ v :: l) ≠ none := by
  intro none_
  have reads : secrets.Reads ⟨before,k ++ v :: l,[]⟩ (Place.past ⟨k.getLast?.or before,v :: l,k⟩ [v] l) :=
    ⟨_,(spells_key.group _ _).mpr ⟨k,_,rfl,isKey,rfl⟩,
      .inr (.inr ((Regex.spells_plus bare _ _).mpr ⟨[v],l,rfl,⟨List.cons_ne_nil _ _,by simpa using isBare⟩,rfl⟩))⟩
  cases Regex.run_complete secrets reads none_

/-- A scheme and a credential, up to the end of the credential. -/
def Url (text : Text) : Prop :=
  ∃ h a b, text = h ++ (a ++ 58 :: (b ++ [64])) ∧ (h.map fold = ascii "http://" ∨ h.map fold = ascii "https://") ∧
    (a ≠ [] ∧ ∀ c ∈ a,host c = true) ∧ b ≠ [] ∧ ∀ c ∈ b,host c = true

theorem spells_urls : Regex.Spells urls Url := by
  refine (Regex.spells_seq (Regex.spells_literal fold (ascii "http")) (Regex.spells_seq (Regex.spells_optional
    (Regex.spells_literal fold (ascii "s"))) (Regex.spells_seq (Regex.spells_literal fold (ascii "://"))
      (Regex.spells_seq (Regex.spells_plus host) (Regex.spells_seq (Regex.spells_one _) (Regex.spells_seq (Regex.spells_plus host)
        (Regex.spells_one _))))))).congr (fun taken => ?_)
  constructor
  · rintro ⟨h,_,rfl,http,e,_,rfl,secure,q,_,rfl,slashes,a,_,rfl,user,_,_,rfl,⟨c,rfl,colon⟩,b,_,rfl,pass,d,rfl,at_⟩
    refine ⟨h ++ (e ++ q),a,b,?_,?_,user,pass⟩
    · rw [of_decide_eq_true colon,of_decide_eq_true at_]
      simp
    · obtain secure | rfl := secure
      · exact .inr (by rw [List.map_append,List.map_append,http,secure,slashes]; rfl)
      · exact .inl (by rw [List.map_append,List.map_append,http,slashes]; rfl)
  · rintro ⟨h,a,b,rfl,start,user,pass⟩
    obtain ⟨p,e,q,rfl,http,secure,slashes⟩ : ∃ p e q, h = p ++ (e ++ q) ∧ p.map fold = ascii "http" ∧
        (e.map fold = ascii "s" ∨ e = []) ∧ q.map fold = ascii "://" := by
      obtain plain | secure := start
      · refine ⟨h.take 4,[],h.drop 4,by simp,?_,.inr rfl,?_⟩
        · rw [List.map_take,plain]
          rfl
        · rw [List.map_drop,plain]
          rfl
      · refine ⟨h.take 4,(h.drop 4).take 1,(h.drop 4).drop 1,by rw [List.take_append_drop,List.take_append_drop],?_,.inl ?_,?_⟩
        · rw [List.map_take,secure]
          rfl
        · rw [List.map_take,List.map_drop,secure]
          rfl
        · rw [List.map_drop,List.map_drop,secure]
          rfl
    exact ⟨p,_,by simp,http,e,_,rfl,secure,q,_,rfl,slashes,a,_,rfl,user,[58],_,rfl,⟨58,rfl,rfl⟩,b,[64],rfl,pass,64,rfl,rfl⟩

end Expbuild.Redaction
