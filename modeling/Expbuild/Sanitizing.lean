import Expbuild.Redaction

/-!
Nothing that the replacements of `sanitizeLog` leave is found again. For each of the
expressions there is a form in which what it finds stands already replaced, and each
replacement leaves what is in this form for itself and for those before it.
-/
namespace Expbuild.Sanitizing
open Expbuild.Patterns Expbuild.Redaction

/-! ### Units and runs -/

theorem ends_cons {p : Nat → Bool} {c : Nat} {l : Text} : Ends p (c :: l) ↔ p c = false := by simp [Ends]

/-- A run of a class ends at one place. -/
theorem span_unique {p : Nat → Bool} {a b a' b' : Text} (all : ∀ c ∈ a,p c = true) (all' : ∀ c ∈ a',p c = true)
    (ends : Ends p b) (ends' : Ends p b') (same : a ++ b = a' ++ b') : a = a' ∧ b = b' := by
  induction a generalizing a' with
  | nil =>
    cases a' with
    | nil => exact ⟨rfl,same⟩
    | cons c a' =>
      have shape : b = c :: (a' ++ b') := same
      rw [shape,ends_cons] at ends
      exact absurd (all' c List.mem_cons_self) (by simp [ends])
  | cons c a ih =>
    cases a' with
    | nil =>
      have shape : c :: (a ++ b) = b' := same
      rw [← shape,ends_cons] at ends'
      exact absurd (all c List.mem_cons_self) (by simp [ends'])
    | cons c' a' =>
      obtain ⟨rfl,tails⟩ := List.cons.inj same
      obtain ⟨rfl,rfl⟩ := ih (fun d member => all d (List.mem_cons_of_mem _ member))
        (fun d member => all' d (List.mem_cons_of_mem _ member)) tails
      exact ⟨rfl,rfl⟩

/-- Two texts of which one begins with the other. -/
def compatible (a b : Text) : Bool := a.isPrefixOf b || b.isPrefixOf a

theorem compatible_of_append {a b x y : Text} (same : a ++ x = b ++ y) : compatible a b = true := by
  obtain ⟨e,rfl,_⟩ | ⟨e,rfl,_⟩ := List.append_eq_append_iff.mp same
  · simp [compatible]
  · simp [compatible]

theorem compatible_fold {a b x y : Text} (same : a ++ x = b ++ y) : compatible (a.map fold) (b.map fold) = true :=
  compatible_of_append (x := x.map fold) (y := y.map fold) (by rw [← List.map_append,← List.map_append,same])

/-- A word of a list of which none begins with another is found at one place. -/
theorem spelled_unique {words : List Text} (free : ∀ a ∈ words,∀ b ∈ words,compatible a b = true → a = b) {a b x y : Text}
    (spelled : a.map fold ∈ words) (spelled' : b.map fold ∈ words) (same : a ++ x = b ++ y) : a = b ∧ x = y := by
  have equal := free _ spelled _ spelled' (compatible_fold same)
  have lengths : a.length = b.length := by simpa using congrArg List.length equal
  exact List.append_inj same lengths

theorem scheme_unique {a b x y : Text} (scheme : Scheme a) (scheme' : Scheme b) (same : a ++ x = b ++ y) : a = b ∧ x = y :=
  spelled_unique (by decide) scheme scheme' same

theorem name_unique {a b x y : Text} (known : a.map fold ∈ names) (known' : b.map fold ∈ names) (same : a ++ x = b ++ y) : a = b ∧ x = y :=
  spelled_unique (by decide) known known' same

/-! ### Keys -/

/-- What a key is made of. -/
def keyUnit (c : Nat) : Bool := nameUnit c || quote c || space c || operator c

theorem letter_nameUnit {c : Nat} (holds : letter c = true) : nameUnit c = true := by
  rw [nameUnit,letter_word holds]
  rfl

theorem key_units {k : Text} (isKey : Key k) : ∀ c ∈ k,keyUnit c = true := by
  obtain ⟨n,r,q,s,o,s',rfl,known,units,closing,spaces,operates,spaces'⟩ := isKey
  have closing_ : ∀ c ∈ q,quote c = true := by
    obtain rfl | ⟨c,rfl,isQuote⟩ := closing
    · exact fun _ wrong => (by cases wrong)
    · simpa using isQuote
  intro c member
  simp only [List.mem_append,List.mem_cons] at member
  unfold keyUnit
  rcases member with inside | inside | inside | inside | rfl | inside
  · simp [letter_nameUnit (name_letters known c inside)]
  · simp [units c inside]
  · simp [closing_ c inside]
  · simp [spaces c inside]
  · simp [operates]
  · simp [spaces' c inside]

theorem quote_class {c : Nat} (holds : quote c = true) : nameUnit c = false ∧ space c = false ∧ operator c = false ∧ letter c = false := by
  simp only [quote,Bool.or_eq_true,decide_eq_true_eq] at holds
  rcases holds with rfl | rfl <;> decide

theorem operator_class {c : Nat} (holds : operator c = true) :
    nameUnit c = false ∧ space c = false ∧ quote c = false ∧ letter c = false := by
  simp only [operator,Bool.or_eq_true,decide_eq_true_eq] at holds
  rcases holds with rfl | rfl <;> decide

theorem space_class {c : Nat} (holds : space c = true) : nameUnit c = false ∧ letter c = false := by
  simp only [space,nameUnit,word,letter,Bool.or_eq_true,Bool.and_eq_true,Bool.or_eq_false_iff,Bool.and_eq_false_iff,
    decide_eq_true_eq,decide_eq_false_iff_not] at holds ⊢
  omega

theorem bare_space {c : Nat} (holds : bare c = true) : space c = false := by
  simp only [bare,Bool.not_eq_true',Bool.or_eq_false_iff] at holds
  exact holds.1.1.1

theorem token_space {c : Nat} (holds : token c = true) : space c = false := by
  simp only [token,Bool.not_eq_true',Bool.or_eq_false_iff] at holds
  exact holds.1.1.1

/-- After the units of the name comes something else. -/
theorem ends_name {q s x : Text} {o : Nat} (closing : q = [] ∨ ∃ c, q = [c] ∧ quote c = true) (spaces : ∀ c ∈ s,space c = true)
    (operates : operator o = true) : Ends nameUnit (q ++ (s ++ o :: x)) := by
  obtain rfl | ⟨c,rfl,isQuote⟩ := closing
  · cases s with
    | nil => exact ends_cons.mpr (operator_class operates).1
    | cons c s => exact ends_cons.mpr (space_class (spaces c List.mem_cons_self)).1
  · exact ends_cons.mpr (quote_class isQuote).1

theorem quote_unique {q q' x x' : Text} (closing : q = [] ∨ ∃ c, q = [c] ∧ quote c = true)
    (closing' : q' = [] ∨ ∃ c, q' = [c] ∧ quote c = true) (ends : Ends quote x) (ends' : Ends quote x') (same : q ++ x = q' ++ x') :
    q = q' ∧ x = x' := by
  have all : ∀ q : Text, (q = [] ∨ ∃ c, q = [c] ∧ quote c = true) → ∀ c ∈ q,quote c = true := by
    rintro q (rfl | ⟨c,rfl,isQuote⟩)
    · exact fun _ wrong => (by cases wrong)
    · simpa using isQuote
  exact span_unique (all q closing) (all q' closing') ends ends' same

theorem ends_quote {s x : Text} {o : Nat} (spaces : ∀ c ∈ s,space c = true) (operates : operator o = true) : Ends quote (s ++ o :: x) := by
  cases s with
  | nil => exact ends_cons.mpr (operator_class operates).2.2.1
  | cons c s =>
    refine ends_cons.mpr ?_
    by_contra isQuote
    rw [Bool.not_eq_false] at isQuote
    exact absurd (spaces c List.mem_cons_self) (by simp [(quote_class isQuote).2.1])

/-- The key at the beginning of a text is unique. -/
theorem key_unique {k k' l l' : Text} {v v' : Nat} (isKey : Key k) (isKey' : Key k') (solid : space v = false) (solid' : space v' = false)
    (same : k ++ v :: l = k' ++ v' :: l') : k = k' ∧ v = v' ∧ l = l' := by
  obtain ⟨n,r,q,s,o,t,rfl,known,units,closing,spaces,operates,ending⟩ := isKey
  obtain ⟨n',r',q',s',o',t',rfl,known',units',closing',spaces',operates',ending'⟩ := isKey'
  simp only [List.append_assoc,List.cons_append] at same
  obtain ⟨rfl,afterName⟩ := name_unique known known' same
  obtain ⟨rfl,afterUnits⟩ := span_unique units units' (ends_name closing spaces operates) (ends_name closing' spaces' operates') afterName
  obtain ⟨rfl,afterQuote⟩ := quote_unique closing closing' (ends_quote spaces operates) (ends_quote spaces' operates') afterUnits
  obtain ⟨rfl,afterSpace⟩ := span_unique spaces spaces' (ends_cons.mpr (operator_class operates).2.1)
    (ends_cons.mpr (operator_class operates').2.1) afterQuote
  obtain ⟨rfl,afterOperator⟩ := List.cons.inj afterSpace
  obtain ⟨rfl,values⟩ := span_unique ending ending' (ends_cons.mpr solid) (ends_cons.mpr solid') afterOperator
  obtain ⟨rfl,rfl⟩ := List.cons.inj values
  exact ⟨rfl,rfl,rfl⟩

/-! ### What stands replaced -/

def MarkedToken (text : Text) : Prop := ∃ w l, Scheme w ∧ text = w ++ 32 :: (mark ++ l) ∧ Ends token l
def FineToken (before : Option Nat) (text : Text) : Prop := Token before text → MarkedToken text

/-- A text in which a secret begins. -/
def Secret (text : Text) : Prop := ∃ k v l, text = k ++ v :: l ∧ Key k ∧ bare v = true
def MarkedSecret (text : Text) : Prop := ∃ k l, Key k ∧ text = k ++ (mark ++ l) ∧ Ends bare l
def FineSecret (_ : Option Nat) (text : Text) : Prop := Secret text → MarkedSecret text

def FineUrl (_ : Option Nat) (text : Text) : Prop := ∀ u l, text = u ++ l → ¬Url u

theorem run_within {p : Nat → Bool} {t m u l : Text} (all : ∀ c ∈ t,p c = true) (ends : Ends p l) (same : t ++ u = m ++ l) :
    t.length ≤ m.length := by
  obtain ⟨e,rfl,_⟩ | ⟨e,rfl,rest⟩ := List.append_eq_append_iff.mp same
  · simp
  · cases e with
    | nil => simp
    | cons c e =>
      rw [rest] at ends
      exact absurd (all c (by simp)) (by simpa [Ends] using ends)

/-- The mark is read again, as far as it is there. -/
theorem settle {p : Nat → Bool} {a t rest l : Text} {n : Nat} (marks : ∀ c ∈ mark,p c = true) (ends : Ends p l)
    (all : ∀ c ∈ t,p c = true) (ends' : Ends p rest) (short : (a ++ (mark ++ l)).take n = a ++ (t ++ rest)) :
    rest = l.take (n - (a ++ mark).length) := by
  have whole : a ++ (mark ++ l) = a ++ (t ++ (rest ++ (a ++ (mark ++ l)).drop n)) := by
    have split_ := List.take_append_drop n (a ++ (mark ++ l))
    rw [short] at split_
    simpa using split_.symm
  have tails : t ++ (rest ++ (a ++ (mark ++ l)).drop n) = mark ++ l := (List.append_cancel_left whole).symm
  have exact_ (same : t = mark) : rest = l.take (n - (a ++ mark).length) := by
    subst same
    have dropped := congrArg (List.drop (a ++ mark).length) short
    rw [← List.append_assoc,← List.append_assoc,List.drop_left,List.drop_take,List.drop_left] at dropped
    exact dropped.symm
  cases rest with
  | cons c rest => exact exact_ (span_unique all marks (ends_cons.mpr (ends_cons.mp ends')) ends tails).1
  | nil =>
    have within := run_within all ends tails
    have lengths := congrArg List.length short
    simp only [List.length_take,List.length_append,List.length_nil] at lengths within ⊢
    obtain rfl | some_ := l.eq_nil_or_concat
    · simp
    · have long : 0 < l.length := by
        obtain ⟨_,_,rfl⟩ := some_
        simp
      rw [Nat.sub_eq_zero_of_le (by omega),List.take_zero]

theorem token_of_sound {before : Option Nat} {text : Text} {y : Place Nat} (done : tokens.exec before text = some y) (more : Text) :
    Token before (text ++ more) := by
  obtain ⟨plain,s,t,rfl,scheme,some_,spaces,some',all,_⟩ := tokens_sound done
  cases t with
  | nil => exact absurd rfl some'
  | cons c t => exact ⟨plain,y.captured,s,c,t ++ (y.rest ++ more),by simp,scheme,some_,spaces,all c List.mem_cons_self⟩

theorem settled_token {before : Option Nat} {text : Text} (fine : FineToken before text) :
    Settled tokens (fun scheme => scheme ++ 32 :: mark) before text := by
  intro n y done
  have hit : Token before text := List.take_append_drop n text ▸ token_of_sound done (text.drop n)
  obtain ⟨w,l,scheme,rfl,ends⟩ := fine hit
  obtain ⟨_,s,t,shape,scheme',_,spaces,some',all,ends'⟩ := tokens_sound done
  have split_ := List.take_append_drop n (w ++ 32 :: (mark ++ l))
  rw [shape,List.append_assoc] at split_
  obtain ⟨same,tails⟩ := scheme_unique scheme' scheme split_
  obtain ⟨c,t',rfl⟩ := List.exists_cons_of_ne_nil some'
  have parted : s ++ (c :: (t' ++ (y.rest ++ (w ++ 32 :: (mark ++ l)).drop n))) = [32] ++ (mark ++ l) := by simpa using tails
  obtain ⟨single,_⟩ := span_unique spaces (by decide) (ends_cons.mpr (token_space (all c List.mem_cons_self)))
    (ends_cons.mpr (by decide)) parted
  refine ⟨l,by simp [same],?_⟩
  have short : ((w ++ [32]) ++ (mark ++ l)).take n = (w ++ [32]) ++ ((c :: t') ++ y.rest) := by
    rw [← same,← single]
    simpa [single,same] using shape
  have rest := settle (by decide) ends all ends' short
  simpa [same] using rest

theorem settled_secret {before : Option Nat} {text : Text} (fine : FineSecret before text) :
    Settled secrets (fun name => name ++ mark) before text := by
  intro n y done
  obtain ⟨isKey,v,l',shape,isBare,whole⟩ := secrets_sound done
  have split_ := List.take_append_drop n text
  rw [shape] at split_
  have hit : Secret text := ⟨y.captured,v,l' ++ (y.rest ++ text.drop n),by simpa using split_.symm,isKey,isBare⟩
  obtain ⟨k,l,isKey',rfl,ends⟩ := fine hit
  have parted : y.captured ++ v :: (l' ++ (y.rest ++ (k ++ (mark ++ l)).drop n)) = k ++ 91 :: (mark.tail ++ l) := by
    simp only [List.append_assoc,List.cons_append] at split_
    exact split_
  obtain ⟨same,first,_⟩ := key_unique isKey isKey' (bare_space isBare) (by decide : space 91 = false) parted
  obtain ⟨all,ends'⟩ := whole (first ▸ by decide)
  refine ⟨l,by simp [same],?_⟩
  rw [same] at shape ⊢
  exact settle (by decide) ends all ends' shape

theorem settled_url {before : Option Nat} {text : Text} (template : Text → Text) (fine : FineUrl before text) : Settled urls template before text := by
  intro n y done
  obtain ⟨z,reads,_⟩ := Regex.run_sound _ done
  obtain ⟨u,rest,shape,isUrl,_⟩ := (spells_urls _ _).mp reads
  have shape : text.take n = u ++ rest := shape
  have split_ := List.take_append_drop n text
  rw [shape,List.append_assoc] at split_
  exact absurd isUrl (fine u _ split_.symm)

/-! ### Tokens -/

theorem letter_token {c : Nat} (holds : letter c = true) : token c = true := by
  simp only [letter,token,space,Bool.or_eq_true,Bool.and_eq_true,Bool.not_eq_true',Bool.or_eq_false_iff,Bool.and_eq_false_iff,
    decide_eq_true_eq,decide_eq_false_iff_not] at holds ⊢
  omega

theorem letter_bare {c : Nat} (holds : letter c = true) : bare c = true := by
  simp only [letter,bare,space,Bool.or_eq_true,Bool.and_eq_true,Bool.not_eq_true',Bool.or_eq_false_iff,Bool.and_eq_false_iff,
    decide_eq_true_eq,decide_eq_false_iff_not] at holds ⊢
  omega

theorem ends_mono {p q : Nat → Bool} {l : Text} (ends : Ends p l) (more : ∀ {c},q c = true → p c = true) : Ends q l := by
  cases l with
  | nil => rfl
  | cons c l =>
    rw [ends_cons] at ends ⊢
    by_contra holds
    rw [Bool.not_eq_false] at holds
    exact absurd (more holds) (by simp [ends])

theorem scheme_head {c : Nat} {l : Text} (scheme : Scheme (c :: l)) : fold c = 98 := by
  have first : ∀ w ∈ schemes,w.head? = some 98 := by decide
  have head := first _ scheme
  simpa using head

/-- Where no letter stands, no token begins. -/
theorem fine_of_plain {before : Option Nat} {text : Text} (plain : Ends letter text) : FineToken before text := by
  rintro ⟨_,w,s,t,l,rfl,scheme,_⟩
  obtain ⟨c,w',rfl⟩ := scheme_cons scheme
  exact absurd (scheme_letters scheme c List.mem_cons_self) (by simpa [Ends] using plain)

/-- A token that begins in one part of a text and ends in the next. -/
theorem token_overlap {before : Option Nat} {a z : Text} {c : Nat} (hit : Token before (a ++ c :: z)) :
    (∀ x, Token before (a ++ x)) ∨ space c = true ∨ (∃ e s l, Scheme (a ++ c :: e) ∧ z = e ++ s :: l ∧ space s = true) ∨
      (token c = true ∧ (∃ w s, a = w ++ s ∧ (∀ d ∈ w,letter d = true) ∧ ∀ d ∈ s,space d = true) ∧
        ∀ d x, token d = true → Token before (a ++ d :: x)) := by
  obtain ⟨plain,w,s,t,l,same,scheme,some_,spaces,first⟩ := hit
  obtain ⟨b,s',rfl⟩ := List.exists_cons_of_ne_nil some_
  have ending (e : a = w ++ b :: s') (isToken : token c = true) : token c = true ∧
      (∃ w s, a = w ++ s ∧ (∀ d ∈ w,letter d = true) ∧ ∀ d ∈ s,space d = true) ∧ ∀ d x, token d = true → Token before (a ++ d :: x) :=
    ⟨isToken,⟨w,_,e,scheme_letters scheme,spaces⟩,fun d x holds => ⟨plain,w,_,d,x,by rw [e,List.append_assoc],scheme,some_,spaces,holds⟩⟩
  obtain ⟨e,rfl,tails⟩ | ⟨e,rfl,tails⟩ := List.append_eq_append_iff.mp same
  · cases e with
    | nil =>
      obtain ⟨rfl,_⟩ := List.cons.inj tails
      exact .inr (.inl (spaces c List.mem_cons_self))
    | cons d e =>
      obtain ⟨rfl,rfl⟩ := List.cons.inj tails
      exact .inr (.inr (.inl ⟨e,b,s' ++ t :: l,scheme,rfl,spaces b List.mem_cons_self⟩))
  · obtain ⟨f,rfl,ends⟩ | ⟨f,shape,ends⟩ := List.append_eq_append_iff.mp tails
    · cases f with
      | nil =>
        obtain ⟨rfl,rfl⟩ := List.cons.inj ends
        exact .inr (.inr (.inr (ending (by simp) first)))
      | cons d f =>
        obtain ⟨rfl,_⟩ := List.cons.inj ends
        exact .inl (fun x => ⟨plain,w,_,t,f ++ x,by simp,scheme,some_,spaces,first⟩)
    · cases f with
      | nil =>
        obtain ⟨rfl,rfl⟩ := List.cons.inj ends
        exact .inr (.inr (.inr (ending (by rw [shape,List.append_nil]) first)))
      | cons d f =>
        obtain ⟨rfl,_⟩ := List.cons.inj ends
        exact .inr (.inl (spaces c (by rw [shape]; simp)))

/-- An expression that begins with letters leaves the beginning of a text that is none. -/
theorem joined_head {r : Regex Nat} (template : Text → Text) {before : Option Nat} {text : Text} {ps : List (Piece Nat)}
    (starts : ∀ {before : Option Nat} {text : Text} {y : Place Nat}, r.exec before text = some y → ∃ c l, text = c :: l ∧ letter c = true)
    (cut : Cut r before text ps) (plain : Ends letter text) : (joined template ps).head? = text.head? := by
  cases cut with
  | done => rfl
  | copy => rfl
  | find found _ =>
    obtain ⟨c,l,rfl,isLetter⟩ := starts found
    exact absurd (ends_cons.mp plain) (by simp [isLetter])

theorem tokens_start {before : Option Nat} {text : Text} {y : Place Nat} (done : tokens.exec before text = some y) :
    ∃ c l, text = c :: l ∧ letter c = true := by
  obtain ⟨_,s,t,rfl,scheme,_⟩ := tokens_sound done
  obtain ⟨c,w,same⟩ := scheme_cons scheme
  exact ⟨c,_,by rw [same]; rfl,scheme_letters scheme c (same ▸ List.mem_cons_self)⟩

/-- Within a replacement, no other token begins. -/
theorem token_inside {before : Option Nat} {w a b x : Text} {c : Nat} (scheme : Scheme w) (shape : w ++ 32 :: mark = a ++ c :: b)
    (later : a ≠ []) : ¬Token (a.getLast?.or before) (c :: b ++ x) := by
  intro ⟨plain,w',s,t,l,same,scheme',_⟩
  obtain ⟨d,w'',rfl⟩ := scheme_cons scheme'
  obtain ⟨rfl,_⟩ := List.cons.inj same
  obtain ⟨e,rfl,tails⟩ | ⟨e,rfl,_⟩ := List.append_eq_append_iff.mp shape
  · have other : ∀ d ∈ 32 :: mark,fold d ≠ 98 := by decide
    exact other c (tails ▸ by simp) (scheme_head scheme')
  · obtain ⟨front,last,rfl⟩ := (List.eq_nil_or_concat a).resolve_left later
    have isLetter := scheme_letters scheme last (by simp)
    simp [letter_word isLetter] at plain

/-- After the first replacement, every token stands replaced. -/
theorem tokens_fine {before : Option Nat} {text : Text} {ps : List (Piece Nat)} (cut : Cut tokens before text ps) :
    Everywhere FineToken before (joined (fun scheme => scheme ++ 32 :: mark) ps) := by
  induction cut with
  | done => exact fine_of_plain rfl
  | @copy before c rest ps none_ more ih =>
    refine ⟨fun hit => absurd none_ (tokens_complete ?_),ih⟩
    obtain same | ⟨u,m,o,y,rfl,found,same⟩ := cut_first (fun scheme => scheme ++ 32 :: mark) more
    · rwa [← same]
    · obtain ⟨apart,s,t,rfl,scheme,_⟩ := tokens_sound found
      obtain ⟨d,w,spelled⟩ := scheme_cons scheme
      have isLetter := scheme_letters scheme d (spelled ▸ List.mem_cons_self)
      have hit : Token before ((c :: u) ++ d :: (w ++ 32 :: (mark ++ o))) := by
        have shape : c :: joined (fun scheme => scheme ++ 32 :: mark) ps = (c :: u) ++ d :: (w ++ 32 :: (mark ++ o)) := by
          rw [same,spelled]
          simp
        exact shape ▸ hit
      obtain whole | isSpace | ⟨e,_,_,scheme',_⟩ | ⟨isToken,_,again⟩ := token_overlap hit
      · exact whole _
      · exact absurd isLetter (by simp [(space_class isSpace).2])
      · rw [← last_cons c u none] at apart
        obtain ⟨front,last,split_⟩ := (List.eq_nil_or_concat (c :: u)).resolve_left (List.cons_ne_nil c u)
        have isWord := letter_word (scheme_letters scheme' last (by simp [split_]))
        simp [split_,isWord] at apart
      · rw [spelled]
        exact again d _ isToken
  | @find before text y ps found more ih =>
    obtain ⟨_,s,t,_,scheme,_,_,_,_,ends⟩ := tokens_sound found
    have head := joined_head (fun scheme => scheme ++ 32 :: mark) tokens_start more (ends_mono ends letter_token)
    rw [joined_found]
    refine Everywhere.append (fun a c b shape hit => ?_) (ih.change (fine_of_plain ?_))
    · by_cases first : a = []
      · subst first
        rw [List.nil_append] at shape
        refine ⟨y.captured,joined (fun scheme => scheme ++ 32 :: mark) ps,scheme,by rw [← shape]; simp,?_⟩
        unfold Ends
        rw [head]
        exact ends
      · exact absurd hit (token_inside scheme shape first)
    · unfold Ends
      rw [head]
      exact ends_mono ends letter_token

/-! ### Secrets -/

theorem map_fold_mark : mark.map fold = mark := by decide
theorem mark_cons : mark = 91 :: mark.tail := rfl

/-- No name of a secret begins within a token that stands replaced. -/
theorem no_name_in_token {w a e n x y : Text} (scheme : Scheme w) (shape : w ++ 32 :: mark = a ++ e) (later : a ≠ []) (some_ : e ≠ [])
    (known : n.map fold ∈ names) : e ++ x ≠ n ++ y := by
  intro same
  have apart : ∀ word ∈ schemes,∀ name ∈ names,∀ i ∈ List.range 17,0 < i → i < (word ++ 32 :: mark).length →
      compatible ((word ++ 32 :: mark).drop i) name = false := by decide
  have folded : w.map fold ++ 32 :: mark = a.map fold ++ e.map fold := by
    have := congrArg (List.map fold) shape
    rwa [List.map_append,List.map_append,List.map_cons,map_fold_mark] at this
  have lengths := congrArg List.length folded
  have long : (w.map fold).length ≤ 6 := by
    have : ∀ word ∈ schemes,word.length ≤ 6 := by decide
    exact this _ scheme
  have begun := List.length_pos_iff.mpr later
  have left := List.length_pos_iff.mpr some_
  have dropped : (w.map fold ++ 32 :: mark).drop a.length = e.map fold := by
    rw [folded,List.drop_left' (List.length_map fold)]
  simp only [List.length_append,List.length_cons,List.length_map,show mark.length = 10 from rfl] at lengths long
  have together := compatible_fold same
  rw [← dropped,apart _ scheme _ known a.length (List.mem_range.mpr (by omega)) begun
    (by simp only [List.length_append,List.length_cons,List.length_map,show mark.length = 10 from rfl]; omega)] at together
  cases together

/-- Nor does one begin within `Bearer` or `Basic` and what follows. -/
theorem no_name_in_scheme {a e n l y : Text} {c d : Nat} (scheme : Scheme (a ++ c :: e)) (later : a ≠ []) (isSpace : space d = true)
    (known : n.map fold ∈ names) : c :: (e ++ d :: l) ≠ n ++ y := by
  intro same
  have apart : ∀ word ∈ schemes,∀ name ∈ names,∀ i ∈ List.range 7,0 < i → name.isPrefixOf (word.drop i) = false := by decide
  have dropped : ((a ++ c :: e).map fold).drop a.length = (c :: e).map fold := by
    rw [List.map_append,List.drop_left' (List.length_map fold)]
  have long : ((a ++ c :: e).map fold).length ≤ 6 := by
    have : ∀ word ∈ schemes,word.length ≤ 6 := by decide
    exact this _ scheme
  simp only [List.length_append,List.length_map] at long
  have none_ : ¬n.map fold <+: (c :: e).map fold := by
    rw [← dropped,← List.isPrefixOf_iff_prefix,apart _ scheme _ known a.length (List.mem_range.mpr (by omega)) (List.length_pos_iff.mpr later)]
    decide
  have same : (c :: e) ++ d :: l = n ++ y := same
  obtain ⟨f,rfl,tails⟩ | ⟨f,shape,_⟩ := List.append_eq_append_iff.mp same
  · cases f with
    | nil => exact none_ (by simp)
    | cons b f =>
      obtain ⟨rfl,_⟩ := List.cons.inj tails
      exact absurd (name_letters known d (by simp)) (by simp [(space_class isSpace).2])
  · exact none_ ⟨f.map fold,by rw [shape,List.map_append]⟩

/-- A token that stands replaced before a match is not touched by what replaces the match. -/
theorem marked_token_kept {a m o : Text} (marked : MarkedToken (a ++ m)) (begins : ∃ c l, m = c :: l ∧ token c = true)
    (outside : ∀ w e x, Scheme w → e ≠ [] → w ++ 32 :: mark = a ++ e → m ≠ e ++ x) : MarkedToken (a ++ o) := by
  obtain ⟨w,l,scheme,same,ends⟩ := marked
  obtain ⟨c,m',rfl,isToken⟩ := begins
  have begins {x : Text} (ends : Ends token (c :: x)) : False := absurd (ends_cons.mp ends) (by simp [isToken])
  have same : a ++ c :: m' = (w ++ 32 :: mark) ++ l := by simpa using same
  obtain ⟨e,shape,tails⟩ | ⟨e,rfl,rfl⟩ := List.append_eq_append_iff.mp same
  · by_cases nothing : e = []
    · subst nothing
      rw [List.nil_append] at tails
      exact (begins (tails ▸ ends)).elim
    · exact absurd tails (outside w e l scheme nothing shape)
  · cases e with
    | nil => exact (begins ends).elim
    | cons d e => exact ⟨w,(d :: e) ++ o,scheme,by simp,ends_cons.mpr (ends_cons.mp ends)⟩

theorem key_cons {k : Text} (isKey : Key k) : ∃ n x, k = n ++ x ∧ n.map fold ∈ names ∧ ∃ c l, k = c :: l ∧ letter c = true := by
  obtain ⟨n,r,q,s,o,s',rfl,known,_⟩ := isKey
  obtain ⟨c,l,rfl⟩ := spelled_cons known (by decide)
  exact ⟨c :: l,_,rfl,known,c,_,rfl,name_letters known c List.mem_cons_self⟩

theorem secrets_start {before : Option Nat} {text : Text} {y : Place Nat} (done : secrets.exec before text = some y) :
    ∃ c l, text = c :: l ∧ letter c = true := by
  obtain ⟨isKey,v,l,rfl,_⟩ := secrets_sound done
  obtain ⟨_,_,_,_,c,k,same,isLetter⟩ := key_cons isKey
  exact ⟨c,_,by rw [same]; rfl,isLetter⟩

/-- From any letter of a key on there is an operator. -/
theorem key_operator {a k : Text} {c : Nat} (isKey : Key (a ++ c :: k)) (isLetter : letter c = true) : ∃ o ∈ k, operator o = true := by
  obtain ⟨n,r,q,s,o,s',same,_,_,_,_,operates,spaces⟩ := isKey
  have other : c ≠ o := by
    rintro rfl
    exact absurd isLetter (by simp [(operator_class operates).2.2.2])
  have same : a ++ c :: k = (n ++ (r ++ (q ++ s))) ++ o :: s' := by simpa using same
  obtain ⟨e,_,tails⟩ | ⟨e,_,tails⟩ := List.append_eq_append_iff.mp same
  · cases e with
    | nil => exact absurd (List.cons.inj tails).1 other
    | cons d e =>
      obtain ⟨_,rfl⟩ := List.cons.inj tails
      exact ⟨o,by simp,operates⟩
  · cases e with
    | nil => exact absurd (List.cons.inj tails).1.symm other
    | cons d e =>
      obtain ⟨_,rfl⟩ := List.cons.inj tails
      exact absurd isLetter (by simp [(space_class (spaces c (by simp))).2])

/-- No token begins in a key whose value stands replaced. -/
theorem token_in_key {before : Option Nat} {k a b x y : Text} {c : Nat} (isKey : Key k) (shape : k ++ mark = a ++ c :: b)
    (fine : Everywhere FineToken before (k ++ x)) : ¬Token (a.getLast?.or before) (c :: b ++ y) := by
  intro hit
  obtain ⟨d,w,scheme,front⟩ : ∃ d w, Scheme (d :: w) ∧ c = d := by
    obtain ⟨_,w,s,t,l,same,scheme,_⟩ := hit
    obtain ⟨d,w',rfl⟩ := scheme_cons scheme
    exact ⟨d,w',scheme,(List.cons.inj same).1⟩
  subst front
  have isLetter := scheme_letters scheme c List.mem_cons_self
  have other (inside : c ∈ mark) : False := by
    have none_ : ∀ d ∈ mark,fold d ≠ 98 := by decide
    exact none_ c inside (scheme_head scheme)
  obtain ⟨e,_,tails⟩ | ⟨e,rfl,tails⟩ := List.append_eq_append_iff.mp shape
  · exact other (tails ▸ by simp)
  · cases e with
    | nil =>
      rw [List.nil_append] at tails
      exact other (tails ▸ List.mem_cons_self)
    | cons c' k' =>
      obtain ⟨rfl,rfl⟩ := List.cons.inj tails
      obtain ⟨o,inside,operates⟩ := key_operator isKey isLetter
      obtain ⟨_,solid,_,plain⟩ := operator_class operates
      have foreign (inside : 91 ∈ c :: k') : False := absurd (key_units isKey 91 (List.mem_append_right a inside)) (by decide)
      have hit : Token (a.getLast?.or before) ((c :: k') ++ 91 :: (mark.tail ++ y)) := by
        have same : c :: (k' ++ mark) ++ y = (c :: k') ++ 91 :: (mark.tail ++ y) := by
          rw [List.cons_append,List.append_assoc,mark_cons]
          rfl
        exact same ▸ hit
      rw [List.append_assoc] at fine
      obtain whole | isSpace | ⟨e,_,_,scheme',_⟩ | ⟨_,⟨w',s,parts,letters,spaces⟩,_⟩ := token_overlap hit
      · obtain ⟨w',l,scheme',same,_⟩ := fine.after.here (whole x)
        have outside (inside : o ∈ w' ++ [32]) : False := by
          obtain inside | inside := List.mem_append.mp inside
          · exact absurd (scheme_letters scheme' o inside) (by simp [plain])
          · rw [List.mem_singleton.mp inside] at solid
            exact absurd solid (by decide)
        have same : (c :: k') ++ x = (w' ++ [32]) ++ (mark ++ l) := by simpa using same
        obtain ⟨e,parts,_⟩ | ⟨e,parts,tails⟩ := List.append_eq_append_iff.mp same
        · exact outside (parts ▸ by simp [inside])
        · cases e with
          | nil => exact outside (by rw [List.append_nil] at parts; exact parts ▸ List.mem_cons_of_mem _ inside)
          | cons d e =>
            rw [mark_cons] at tails
            obtain ⟨rfl,_⟩ := List.cons.inj tails
            exact foreign (parts ▸ by simp)
      · exact absurd isSpace (by decide)
      · exact absurd (scheme_letters scheme' 91 (by simp)) (by decide)
      · obtain inside | inside := List.mem_append.mp (parts ▸ List.mem_cons_of_mem c inside)
        · exact absurd (letters o inside) (by simp [plain])
        · exact absurd (spaces o inside) (by simp [solid])

/-- The second replacement leaves no new token. -/
theorem secrets_keep_tokens {before : Option Nat} {text : Text} {ps : List (Piece Nat)} (cut : Cut secrets before text ps)
    (ended : ∀ y, .found y ∈ ps → Ends bare y.rest) (fine : Everywhere FineToken before text) :
    Everywhere FineToken before (joined (fun name => name ++ mark) ps) := by
  induction cut with
  | done => exact fine
  | @copy before c rest ps none_ more ih =>
    rw [joined_copied]
    refine ⟨fun hit => ?_,ih (fun y member => ended y (List.mem_cons_of_mem _ member)) fine.2⟩
    obtain same | ⟨u,m,o,y,rfl,found,same⟩ := cut_first (fun name => name ++ mark) more
    · rw [same] at hit ⊢
      exact fine.1 hit
    · obtain ⟨isKey,v,l,rfl,_⟩ := secrets_sound found
      obtain ⟨n,x,named,known,d,k,spelled,isLetter⟩ := key_cons isKey
      have hit' : Token before ((c :: u) ++ d :: (k ++ (mark ++ o))) := by
        have shape : c :: joined (fun name => name ++ mark) ps = (c :: u) ++ d :: (k ++ (mark ++ o)) := by
          rw [same,spelled]
          simp
        exact shape ▸ hit
      have hit : Token before ((c :: u) ++ (y.captured ++ (v :: l ++ y.rest))) := by
        obtain whole | isSpace | ⟨e,s,l',scheme,shape,isSpace⟩ | ⟨isToken,_,again⟩ := token_overlap hit'
        · exact whole _
        · exact absurd isLetter (by simp [(space_class isSpace).2])
        · refine absurd ?_ (no_name_in_scheme scheme (List.cons_ne_nil c u) isSpace known (l := l') (y := x ++ (mark ++ o)))
          rw [← List.append_assoc,← named,spelled,← shape]
          rfl
        · rw [spelled]
          exact again d _ isToken
      have kept : MarkedToken ((c :: u) ++ (y.captured ++ mark ++ o)) := by
        refine marked_token_kept (fine.1 hit) ⟨d,_,by rw [spelled]; rfl,letter_token isLetter⟩ (fun w e x' scheme some_ shape wrong => ?_)
        refine no_name_in_token scheme shape (List.cons_ne_nil c u) some_ known (x := x') (y := x ++ (v :: l ++ y.rest)) ?_
        rw [← wrong,← List.append_assoc n,← named]
      rw [same]
      exact kept
  | @find before text y ps found more ih =>
    have ends := ended y List.mem_cons_self
    obtain ⟨isKey,v,l,rfl,_⟩ := secrets_sound found
    have head := joined_head (fun name => name ++ mark) secrets_start more (ends_mono ends letter_bare)
    rw [joined_found]
    refine Everywhere.append (fun a c b shape hit => absurd hit (token_in_key isKey shape fine))
      ((ih (fun y member => ended y (List.mem_cons_of_mem _ member)) (fine.rest found)).change (fine_of_plain ?_))
    unfold Ends
    rw [head]
    exact ends_mono ends letter_bare

/-- Between the name and the value there is no letter. -/
theorem after_name_plain {q s s' : Text} {o : Nat} (closing : q = [] ∨ ∃ c, q = [c] ∧ quote c = true) (spaces : ∀ c ∈ s,space c = true)
    (operates : operator o = true) (spaces' : ∀ c ∈ s',space c = true) : ∀ b ∈ q ++ (s ++ o :: s'),letter b = false := by
  intro b member
  simp only [List.mem_append,List.mem_cons] at member
  rcases member with inside | inside | rfl | inside
  · obtain rfl | ⟨b',rfl,isQuote⟩ := closing
    · cases inside
    · rw [List.mem_singleton.mp inside]
      exact (quote_class isQuote).2.2.2
  · exact (space_class (spaces b inside)).2
  · exact (operator_class operates).2.2.2
  · exact (space_class (spaces' b inside)).2

/-- From a name within a key on, there is a key. -/
theorem key_suffix {a k n x y : Text} {c : Nat} (isKey : Key (a ++ c :: k)) (known : n.map fold ∈ names)
    (same : (c :: k) ++ x = n ++ y) : Key (c :: k) := by
  obtain ⟨n₀,r,q,s,o,s',shape,known₀,units,closing,spaces,operates,spaces'⟩ := isKey
  obtain ⟨d,n',rfl⟩ := spelled_cons known (by decide)
  have isLetter : letter c = true := by
    rw [(List.cons.inj same).1]
    exact name_letters known d List.mem_cons_self
  have body : ∀ b ∈ n₀ ++ r,nameUnit b = true := by
    intro b member
    obtain inside | inside := List.mem_append.mp member
    · exact letter_nameUnit (name_letters known₀ b inside)
    · exact units b inside
  have ends (z : Text) : Ends nameUnit (q ++ (s ++ o :: (s' ++ z))) := ends_name closing spaces operates
  have shape : a ++ c :: k = (n₀ ++ r) ++ (q ++ (s ++ o :: s')) := by simpa using shape
  obtain ⟨e,parts,tails⟩ | ⟨e,_,tails⟩ := List.append_eq_append_iff.mp shape
  · cases e with
    | nil =>
      have wrong := ends []
      rw [List.append_nil] at wrong
      rw [List.nil_append] at tails
      rw [← tails,ends_cons] at wrong
      exact absurd (letter_nameUnit isLetter) (by simp [wrong])
    | cons c' e =>
      obtain ⟨rfl,rfl⟩ := List.cons.inj tails
      have spelled : (c :: e) ++ (q ++ (s ++ o :: (s' ++ x))) = (d :: n') ++ y := by simpa using same
      obtain ⟨f,whole,rest⟩ | ⟨f,whole,_⟩ := List.append_eq_append_iff.mp spelled
      · cases f with
        | nil =>
          rw [List.append_nil] at whole
          exact ⟨d :: n',[],q,s,o,s',by rw [whole]; rfl,known,fun _ wrong => (by cases wrong),closing,spaces,operates,spaces'⟩
        | cons b f =>
          have wrong := ends x
          rw [rest] at wrong
          have isName := letter_nameUnit (name_letters known b (by rw [whole]; simp))
          exact absurd (ends_cons.mp wrong) (by simp [isName])
      · refine ⟨d :: n',f,q,s,o,s',by rw [← List.append_assoc (d :: n') f,← whole]; rfl,known,fun b member => body b ?_,closing,spaces,operates,spaces'⟩
        rw [parts,whole]
        simp [member]
  · exact absurd isLetter (by simp [after_name_plain closing spaces operates spaces' c (tails ▸ by simp)])

/-- No name begins within a text of which no part could be the beginning of one. -/
theorem no_name_within {t a b n x y : Text} {c : Nat} (lower : t.map fold = t)
    (apart : ∀ name ∈ names,∀ i ∈ List.range t.length,compatible (t.drop i) name = false) (shape : t = a ++ c :: b)
    (known : n.map fold ∈ names) : (c :: b) ++ x ≠ n ++ y := by
  intro same
  have dropped : t.drop a.length = (c :: b).map fold := by
    have folded : t = a.map fold ++ (c :: b).map fold := by
      rw [← List.map_append,← shape,lower]
    rw [folded,List.drop_left' (List.length_map fold)]
  have lengths := congrArg List.length shape
  rw [List.length_append,List.length_cons] at lengths
  have together := compatible_fold same
  rw [← dropped,apart _ known _ (List.mem_range.mpr (by omega))] at together
  cases together

theorem no_name_in_mark {a b n x y : Text} {c : Nat} (shape : mark = a ++ c :: b) (known : n.map fold ∈ names) :
    (c :: b) ++ x ≠ n ++ y := no_name_within map_fold_mark (by decide) shape known

/-- After the second replacement, every secret stands replaced. -/
theorem secrets_fine {before : Option Nat} {text : Text} {ps : List (Piece Nat)} (cut : Cut secrets before text ps)
    (ended : ∀ y, .found y ∈ ps → Ends bare y.rest) : Everywhere FineSecret before (joined (fun name => name ++ mark) ps) := by
  induction cut with
  | done =>
    rintro ⟨k,v,l,wrong,_⟩
    exact absurd wrong (by simp)
  | @copy before c rest ps none_ more ih =>
    rw [joined_copied]
    refine ⟨?_,ih (fun y member => ended y (List.mem_cons_of_mem _ member))⟩
    rintro ⟨k,v,l,shape,isKey,isBare⟩
    have again {v' : Nat} {l' : Text} (isBare : bare v' = true) (shape : c :: rest = k ++ v' :: l') : False :=
      secrets_complete isKey isBare (shape ▸ none_)
    obtain same | ⟨u,m,o,y,rfl,found,same⟩ := cut_first (fun name => name ++ mark) more
    · rw [same] at shape
      exact (again isBare shape).elim
    · obtain ⟨_,v',l',rfl,isBare',_⟩ := secrets_sound found
      have shape : (c :: (u ++ y.captured)) ++ 91 :: (mark.tail ++ o) = k ++ v :: l := by
        rw [← shape,same,mark_cons]
        simp
      have text_ : c :: (u ++ (y.captured ++ (v' :: l' ++ y.rest))) = (c :: (u ++ y.captured)) ++ v' :: (l' ++ y.rest) := by simp
      obtain ⟨e,whole,rest⟩ | ⟨e,whole,rest⟩ := List.append_eq_append_iff.mp shape
      · cases e with
        | nil =>
          rw [List.append_nil] at whole
          exact (again isBare' (whole ▸ text_)).elim
        | cons d e =>
          obtain ⟨rfl,_⟩ := List.cons.inj rest
          exact absurd (key_units isKey 91 (by rw [whole]; simp)) (by decide)
      · cases e with
        | nil =>
          rw [List.append_nil] at whole
          exact (again isBare' (whole ▸ text_)).elim
        | cons d e =>
          obtain ⟨rfl,_⟩ := List.cons.inj rest
          rw [whole] at text_
          exact (again isBare (text_.trans (by rw [List.append_assoc,List.cons_append]))).elim
  | @find before text y ps found more ih =>
    have ends := ended y List.mem_cons_self
    obtain ⟨isKey,_⟩ := secrets_sound found
    have head := joined_head (fun name => name ++ mark) secrets_start more (ends_mono ends letter_bare)
    rw [joined_found]
    have others := ih (fun y member => ended y (List.mem_cons_of_mem _ member))
    refine Everywhere.append (fun a c b shape hit => ?_) (others.change others.here)
    have ending : Ends bare (joined (fun name => name ++ mark) ps) := by
      unfold Ends
      rw [head]
      exact ends
    obtain ⟨k,v,l,same,isKey',_⟩ := hit
    obtain ⟨n,x,rfl,known,_⟩ := key_cons isKey'
    rw [List.append_assoc] at same
    obtain ⟨e,_,tails⟩ | ⟨e,whole,tails⟩ := List.append_eq_append_iff.mp shape
    · exact absurd same (no_name_in_mark tails known)
    · cases e with
      | nil =>
        rw [List.nil_append] at tails
        exact absurd same (no_name_in_mark (a := []) tails.symm known)
      | cons c' k' =>
        obtain ⟨rfl,rfl⟩ := List.cons.inj tails
        have parted : (c :: k') ++ (mark ++ joined (fun name => name ++ mark) ps) = n ++ (x ++ v :: l) := by
          rw [← same]
          exact (List.append_assoc (c :: k') mark _).symm
        exact ⟨c :: k',_,key_suffix (whole ▸ isKey) known parted,List.append_assoc (c :: k') mark _,ending⟩

/-! ### URLs -/

def hidden : Text := ascii "https://[redacted]@"

/-- `http` or `https`, in any case. -/
def Web (p : Text) : Prop := p.map fold = ascii "http" ∨ p.map fold = ascii "https"

theorem web_letters {p : Text} (web : Web p) : ∀ c ∈ p,letter c = true := by
  obtain spelled | spelled := web
  · exact letters_of_fold (List.mem_singleton.mpr spelled) (by decide)
  · exact letters_of_fold (List.mem_singleton.mpr spelled) (by decide)

theorem web_head {p : Text} (web : Web p) : ∃ c l, p = c :: l ∧ fold c = 104 ∧ letter c = true := by
  cases p with
  | nil => obtain wrong | wrong := web <;> exact absurd wrong (by decide)
  | cons c l =>
    refine ⟨c,l,rfl,?_,web_letters web c List.mem_cons_self⟩
    obtain spelled | spelled := web <;> exact (List.cons.inj spelled).1

/-- What is not a letter is left as it is. -/
theorem unfolded {q t : Text} (same : q.map fold = t) (small : ∀ c ∈ t,c < 65) : q = t := by
  subst same
  induction q with
  | nil => rfl
  | cons c q ih =>
    rw [List.map_cons] at small ⊢
    obtain ⟨first,small⟩ := List.forall_mem_cons.mp small
    have kept : fold c = c := by
      unfold fold at first ⊢
      split at first
      · omega
      · rename_i plain
        exact if_neg plain
    rw [kept,← ih small]

/-- A URL begins with the scheme, a colon and two slashes; then come a user and a password. -/
theorem url_parts {u : Text} (isUrl : Url u) :
    ∃ p r, Web p ∧ u = p ++ 58 :: 47 :: 47 :: (r ++ [64]) ∧ 58 ∈ r ∧ ∀ c ∈ r,host c = true := by
  obtain ⟨h,a,b,rfl,start,⟨_,user⟩,_,pass⟩ := isUrl
  obtain ⟨n,web,slashes⟩ : ∃ n, Web (h.take n) ∧ h.drop n = [58,47,47] := by
    obtain plain | secure := start
    · exact ⟨4,.inl (by rw [List.map_take,plain]; rfl),unfolded (by rw [List.map_drop,plain]; rfl) (by decide)⟩
    · exact ⟨5,.inr (by rw [List.map_take,secure]; rfl),unfolded (by rw [List.map_drop,secure]; rfl) (by decide)⟩
  have whole : h = h.take n ++ [58,47,47] := by rw [← slashes,List.take_append_drop]
  refine ⟨h.take n,a ++ 58 :: b,web,(congrArg (· ++ _) whole).trans (by simp),by simp,fun c member => ?_⟩
  obtain inside | inside := List.mem_append.mp member
  · exact user c inside
  · obtain rfl | inside := List.mem_cons.mp inside
    · decide
    · exact pass c inside

theorem urls_sound {before : Option Nat} {text : Text} {y : Place Nat} (done : urls.exec before text = some y) :
    ∃ u, text = u ++ y.rest ∧ Url u ∧ y.before = some 64 := by
  obtain ⟨z,reads,same⟩ := Regex.run_sound _ done
  cases same
  obtain ⟨u,rest,shape,isUrl,rfl⟩ := (spells_urls _ _).mp reads
  refine ⟨u,shape,isUrl,?_⟩
  obtain ⟨h,a,b,rfl,_⟩ := isUrl
  have last : h ++ (a ++ 58 :: (b ++ [64])) = (h ++ (a ++ 58 :: b)) ++ [64] := by simp
  rw [Place.past,last,List.getLast?_concat]
  rfl

theorem urls_complete {before : Option Nat} {u l : Text} (isUrl : Url u) : urls.exec before (u ++ l) ≠ none := by
  intro none_
  cases Regex.run_complete urls ((spells_urls ⟨before,u ++ l,[]⟩ _).mpr ⟨u,l,rfl,isUrl,rfl⟩) none_

/-- The third replacement leaves no new token. -/
theorem urls_keep_tokens {before : Option Nat} {text : Text} {ps : List (Piece Nat)} (cut : Cut urls before text ps)
    (fine : Everywhere FineToken before text) : Everywhere FineToken before (joined (fun _ => hidden) ps) := by
  induction cut with
  | done => exact fine
  | @copy before c rest ps none_ more ih =>
    rw [joined_copied]
    refine ⟨fun hit => ?_,ih fine.2⟩
    obtain same | ⟨u,m,o,y,rfl,found,same⟩ := cut_first (fun _ => hidden) more
    · rw [same] at hit ⊢
      exact fine.1 hit
    · obtain ⟨w,rfl,isUrl,_⟩ := urls_sound found
      obtain ⟨p,r,web,rfl,_⟩ := url_parts isUrl
      obtain ⟨d,p',rfl,isH,isLetter⟩ := web_head web
      have hit' : Token before ((c :: u) ++ 104 :: (hidden.tail ++ o)) := by
        rw [same] at hit
        exact hit
      have hit : Token before ((c :: u) ++ (d :: p' ++ 58 :: 47 :: 47 :: (r ++ [64]) ++ y.rest)) := by
        obtain whole | isSpace | ⟨e,_,_,scheme,_⟩ | ⟨_,_,again⟩ := token_overlap hit'
        · exact whole _
        · exact absurd isSpace (by decide)
        · have none_ : ∀ word ∈ schemes,104 ∉ word := by decide
          exact absurd (List.mem_map_of_mem (f := fold) (a := 104) (by simp)) (none_ _ scheme)
        · exact again d _ (letter_token isLetter)
      rw [same]
      have marked : MarkedToken ((c :: u) ++ d :: (p' ++ 58 :: 47 :: 47 :: (r ++ [64]) ++ y.rest)) := fine.1 hit
      refine marked_token_kept marked ⟨d,_,rfl,letter_token isLetter⟩ (fun w e x scheme some_ shape wrong => ?_)
      obtain ⟨d',e',rfl⟩ := List.exists_cons_of_ne_nil some_
      have member : d ∈ w ++ 32 :: mark := by
        rw [shape,(List.cons.inj wrong).1]
        simp
      have absent : ∀ word ∈ schemes,104 ∉ word ++ 32 :: mark := by decide
      refine absent _ scheme ?_
      have folded := List.mem_map_of_mem (f := fold) member
      rwa [List.map_append,List.map_cons,map_fold_mark,isH] at folded
  | @find before text y ps found more ih =>
    obtain ⟨_,_,_,last⟩ := urls_sound found
    rw [joined_found]
    refine Everywhere.append (fun a c b shape hit => ?_) ?_
    · obtain ⟨_,w,s,t,l,same,scheme,_⟩ := hit
      obtain ⟨d,w',rfl⟩ := scheme_cons scheme
      have none_ : ∀ d ∈ hidden,fold d ≠ 98 := by decide
      have member : d ∈ hidden := by
        rw [show hidden = a ++ c :: b from shape,(List.cons.inj same).1]
        simp
      exact absurd (scheme_head scheme) (none_ d member)
    · have rest := ih (fine.rest found)
      rw [last] at rest
      exact rest

/-- Where a key reaches into a URL, it ends with the colon of the scheme. -/
theorem key_meets_url {a e x p z : Text} (isKey : Key (a ++ e)) (later : a ≠ []) (some_ : e ≠ []) (web : Web p)
    (same : e ++ x = p ++ 58 :: 47 :: z) : x = 47 :: z ∧ ∀ p', Web p' → Key (a ++ (p' ++ [58])) := by
  obtain ⟨n,r,q,s,o,s',shape,known,units,closing,spaces,operates,spaces'⟩ := isKey
  obtain ⟨d,e',rfl⟩ := List.exists_cons_of_ne_nil some_
  obtain ⟨b,p'',rfl,_,isLetter⟩ := web_head web
  obtain ⟨rfl,_⟩ := List.cons.inj same
  have ends (y : Text) : Ends nameUnit (q ++ (s ++ o :: (s' ++ y))) := ends_name closing spaces operates
  obtain ⟨f,rfl,inside⟩ : ∃ f, a = n ++ f ∧ r ++ (q ++ (s ++ o :: s')) = f ++ d :: e' := by
    obtain ⟨f,whole,tails⟩ | ⟨f,rfl,tails⟩ := List.append_eq_append_iff.mp shape
    · -- the scheme does not begin within the name
      cases f with
      | nil => exact ⟨[],by rw [whole,List.append_nil,List.append_nil],tails.symm⟩
      | cons c f =>
        have apart : ∀ name ∈ names,∀ i ∈ List.range 13,0 < i → i < name.length →
            compatible (name.drop i) (ascii "http") = false ∧ compatible (name.drop i) (ascii "https") = false := by decide
        have dropped : (n.map fold).drop a.length = (c :: f).map fold := by
          rw [whole,List.map_append,List.drop_left' (List.length_map fold)]
        have short : ∀ name ∈ names,name.length ≤ 13 := by decide
        have bound := short _ known
        have lengths := congrArg List.length whole
        simp only [List.length_append,List.length_cons,List.length_map] at lengths bound
        have meets : (c :: f) ++ (r ++ (q ++ (s ++ o :: s')) ++ x) = (d :: p'') ++ 58 :: 47 :: z := by
          rw [← same,tails]
          simp
        have together := compatible_fold meets
        have none_ := apart _ known a.length (List.mem_range.mpr (by omega)) (List.length_pos_iff.mpr later)
          (by rw [List.length_map]; omega)
        rw [dropped] at none_
        obtain spelled | spelled := web
        · rw [spelled,none_.1] at together
          cases together
        · rw [spelled,none_.2] at together
          cases together
    · exact ⟨f,rfl,tails⟩
  obtain ⟨g,rfl,tails⟩ | ⟨g,_,tails⟩ := List.append_eq_append_iff.mp inside.symm
  · have meets : g ++ (q ++ (s ++ o :: (s' ++ x))) = (d :: p'') ++ 58 :: 47 :: z := by
      rw [← same,tails]
      simp
    obtain ⟨rfl,rest⟩ := span_unique (fun c member => units c (List.mem_append_right f member))
      (fun c member => letter_nameUnit (web_letters web c member)) (ends x) (ends_cons.mpr (by decide)) meets
    have nothing : q = [] := by
      obtain rfl | ⟨c,rfl,isQuote⟩ := closing
      · rfl
      · rw [(List.cons.inj rest).1] at isQuote
        exact absurd isQuote (by decide)
    subst nothing
    have none_ : s = [] := by
      cases s with
      | nil => rfl
      | cons c s =>
        have isSpace := spaces c List.mem_cons_self
        rw [(List.cons.inj rest).1] at isSpace
        exact absurd isSpace (by decide)
    subst none_
    obtain ⟨rfl,rest'⟩ := List.cons.inj rest
    have ended : s' = [] := by
      cases s' with
      | nil => rfl
      | cons c s' =>
        have isSpace := spaces' c List.mem_cons_self
        rw [(List.cons.inj rest').1] at isSpace
        exact absurd isSpace (by decide)
    subst ended
    refine ⟨rest',fun p' web' => ⟨n,f ++ p',[],[],58,[],by simp,known,?_,.inl rfl,spaces,operates,spaces'⟩⟩
    intro c member
    obtain early | late := List.mem_append.mp member
    · exact units c (List.mem_append_left _ early)
    · exact letter_nameUnit (web_letters web' c late)
  · exact absurd isLetter (by simp [after_name_plain closing spaces operates spaces' d (tails ▸ by simp)])

theorem map_fold_hidden : hidden.map fold = hidden := by decide

/-- A secret that begins before a replaced URL began there before. -/
theorem secret_before_url {a p z o : Text} (later : a ≠ []) (web : Web p) (hit : Secret (a ++ (hidden ++ o))) :
    Secret (a ++ (p ++ 58 :: 47 :: z)) := by
  obtain ⟨k,v,l,shape,isKey,isBare⟩ := hit
  obtain ⟨d,p',rfl,_,isLetter⟩ := web_head web
  obtain ⟨e,rfl,tails⟩ | ⟨e,rfl,tails⟩ := List.append_eq_append_iff.mp shape
  · by_cases nothing : e = []
    · subst nothing
      rw [List.append_nil] at isKey
      exact ⟨a,d,_,rfl,isKey,letter_bare isLetter⟩
    · obtain ⟨_,isKey'⟩ := key_meets_url isKey later nothing (.inr (by decide : (ascii "https").map fold = _)) tails.symm
      exact ⟨_,47,z,by simp,isKey' _ web,by decide⟩
  · cases e with
    | nil =>
      rw [List.append_nil]
      exact ⟨k,d,_,rfl,isKey,letter_bare isLetter⟩
    | cons b e =>
      obtain ⟨rfl,_⟩ := List.cons.inj tails
      exact ⟨k,v,e ++ (d :: p' ++ 58 :: 47 :: z),by simp,isKey,isBare⟩

/-- A secret that stands replaced before a URL is not touched by what replaces the URL. -/
theorem marked_secret_kept {a p z o : Text} (later : a ≠ []) (web : Web p) (marked : MarkedSecret (a ++ (p ++ 58 :: 47 :: z))) :
    MarkedSecret (a ++ o) := by
  obtain ⟨k,l,isKey,shape,ends⟩ := marked
  obtain ⟨d,p',spelled,isH,isLetter⟩ := web_head web
  have begins (ends : Ends bare (p ++ 58 :: 47 :: z)) : False := by
    rw [spelled] at ends
    exact absurd (ends_cons.mp ends) (by simp [letter_bare isLetter])
  have other {e x : Text} (suffix_ : ∃ f, mark = f ++ e) (some_ : e ≠ []) (same : p ++ 58 :: 47 :: z = e ++ x) : False := by
    obtain ⟨f,within⟩ := suffix_
    obtain ⟨b,e',rfl⟩ := List.exists_cons_of_ne_nil some_
    rw [spelled] at same
    have none_ : ∀ d ∈ mark,fold d ≠ 104 := by decide
    exact none_ d (by rw [within,(List.cons.inj same).1]; simp) isH
  have shape : a ++ (p ++ 58 :: 47 :: z) = (k ++ mark) ++ l := by rw [shape,List.append_assoc]
  obtain ⟨e,parts,tails⟩ | ⟨e,rfl,rfl⟩ := List.append_eq_append_iff.mp shape
  · by_cases nothing : e = []
    · subst nothing
      rw [List.nil_append] at tails
      exact (begins (tails ▸ ends)).elim
    · obtain ⟨f,_,inside⟩ | ⟨f,rfl,rfl⟩ := List.append_eq_append_iff.mp parts
      · exact (other ⟨f,inside⟩ nothing tails).elim
      · by_cases none_ : f = []
        · subst none_
          exact (other ⟨[],rfl⟩ nothing tails).elim
        · have meets : f ++ (mark ++ l) = p ++ 58 :: 47 :: z := by rw [tails,List.append_assoc]
          obtain ⟨wrong,_⟩ := key_meets_url isKey later none_ web meets
          rw [mark_cons] at wrong
          exact absurd (List.cons.inj wrong).1 (by decide)
  · cases e with
    | nil => exact (begins ends).elim
    | cons b e => exact ⟨k,(b :: e) ++ o,isKey,by simp,ends_cons.mpr (ends_cons.mp ends)⟩

/-- The third replacement leaves no new secret. -/
theorem urls_keep_secrets {before : Option Nat} {text : Text} {ps : List (Piece Nat)} (cut : Cut urls before text ps)
    (fine : Everywhere FineSecret before text) : Everywhere FineSecret before (joined (fun _ => hidden) ps) := by
  induction cut with
  | done => exact fine
  | @copy before c rest ps none_ more ih =>
    rw [joined_copied]
    refine ⟨fun hit => ?_,ih fine.2⟩
    obtain same | ⟨u,m,o,y,rfl,found,same⟩ := cut_first (fun _ => hidden) more
    · rw [same] at hit ⊢
      exact fine.1 hit
    · obtain ⟨w,rfl,isUrl,_⟩ := urls_sound found
      obtain ⟨p,r,web,rfl,_⟩ := url_parts isUrl
      rw [same] at hit ⊢
      have later : c :: u ≠ [] := List.cons_ne_nil c u
      have text_ : c :: (u ++ (p ++ 58 :: 47 :: 47 :: (r ++ [64]) ++ y.rest)) =
          (c :: u) ++ (p ++ 58 :: 47 :: (47 :: (r ++ [64]) ++ y.rest)) := by simp
      have marked := fine.1 (text_ ▸ secret_before_url later web hit)
      exact marked_secret_kept later web (text_ ▸ marked)
  | @find before text y ps found more ih =>
    rw [joined_found]
    have others := ih (fine.rest found)
    refine Everywhere.append (fun a c b shape hit => ?_) (others.change others.here)
    obtain ⟨k,v,l,same,isKey,_⟩ := hit
    obtain ⟨n,x,rfl,known,_⟩ := key_cons isKey
    rw [List.append_assoc] at same
    exact absurd same (no_name_within map_fold_hidden (by decide) shape known)

/-- No URL with credentials begins within what replaces another. -/
theorem no_url_in_hidden {a b x u l : Text} {c : Nat} (shape : hidden = a ++ c :: b) (same : (c :: b) ++ x = u ++ l) : ¬Url u := by
  intro isUrl
  obtain ⟨p,r,web,rfl,colon,hosts⟩ := url_parts isUrl
  obtain ⟨d,p',spelled,isH,_⟩ := web_head web
  cases a with
  | nil =>
    have same : ascii "https" ++ 58 :: 47 :: 47 :: (mark ++ 64 :: x) = p ++ 58 :: 47 :: 47 :: (r ++ 64 :: l) := by
      rw [List.nil_append] at shape
      rw [← shape,show hidden = ascii "https" ++ 58 :: 47 :: 47 :: (mark ++ [64]) from rfl] at same
      simpa only [List.append_assoc,List.cons_append,List.nil_append] using same
    obtain ⟨_,rest⟩ := span_unique (by decide) (web_letters web) (ends_cons.mpr (by decide)) (ends_cons.mpr (by decide)) same
    have users : mark ++ 64 :: x = r ++ 64 :: l := (List.cons.inj (List.cons.inj (List.cons.inj rest).2).2).2
    obtain ⟨wrong,_⟩ := span_unique (by decide) hosts (ends_cons.mpr (by decide)) (ends_cons.mpr (by decide)) users
    rw [← wrong] at colon
    exact absurd colon (by decide)
  | cons a' a =>
    have other : ∀ d ∈ hidden.tail,fold d ≠ 104 := by decide
    have front : c = d := by
      rw [spelled] at same
      exact (List.cons.inj same).1
    refine other c ?_ (front ▸ isH)
    rw [shape]
    simp

/-- No URL with credentials reaches into what replaces another. -/
theorem no_url_over_hidden {a e l o : Text} (later : a ≠ []) (some_ : e ≠ []) (same : hidden ++ o = e ++ l) : ¬Url (a ++ e) := by
  intro isUrl
  obtain ⟨p,r,web,shape,_,hosts⟩ := url_parts isUrl
  obtain ⟨b,e',rfl⟩ := List.exists_cons_of_ne_nil some_
  obtain rfl : 104 = b := (List.cons.inj same).1
  obtain ⟨f,rfl,tails⟩ | ⟨f,rfl,tails⟩ := List.append_eq_append_iff.mp shape
  · cases f with
    | nil => exact absurd (List.cons.inj tails).1 (by decide)
    | cons d f =>
      obtain ⟨rfl,_⟩ := List.cons.inj tails
      obtain ⟨a₀,a',rfl⟩ := List.exists_cons_of_ne_nil later
      have inside : 104 ∈ ((a₀ :: a' ++ 104 :: f).map fold).tail := by
        rw [List.cons_append,List.map_cons,List.tail_cons,List.map_append]
        simp [fold]
      obtain spelled | spelled := web <;> rw [spelled] at inside <;> exact absurd inside (by decide)
  · match f,tails with
    | [],tails => exact absurd (List.cons.inj tails).1 (by decide)
    | [_],tails => exact absurd (List.cons.inj (List.cons.inj tails).2).1 (by decide)
    | [_,_],tails => exact absurd (List.cons.inj (List.cons.inj (List.cons.inj tails).2).2).1 (by decide)
    | _ :: _ :: _ :: f,tails =>
      have users : r ++ [64] = f ++ 104 :: e' := (List.cons.inj (List.cons.inj (List.cons.inj tails).2).2).2
      have solid : 47 ∉ 104 :: e' := by
        intro inside
        have member : 47 ∈ r ++ [64] := users ▸ List.mem_append_right f inside
        obtain inside | inside := List.mem_append.mp member
        · exact absurd (hosts 47 inside) (by decide)
        · exact absurd (List.mem_singleton.mp inside) (by decide)
      have last : 64 ∈ 104 :: e' := by
        obtain ⟨g,_,wrong⟩ | ⟨g,_,ending⟩ := List.append_eq_append_iff.mp users
        · cases g with
          | nil => exact absurd (List.cons.inj wrong).1 (by decide)
          | cons b g => exact absurd wrong (by simp)
        · rw [ending]
          simp
      have slashed : ∀ i ∈ List.range 20,64 ∈ hidden.take i → 47 ∈ hidden.take i := by decide
      obtain ⟨g,wrong,_⟩ | ⟨g,whole,_⟩ := List.append_eq_append_iff.mp same
      · exact solid (by rw [wrong]; exact List.mem_append_left g (by decide))
      · have taken : hidden.take (104 :: e').length = 104 :: e' := by rw [whole,List.take_left]
        have bound := congrArg List.length whole
        rw [List.length_append,show hidden.length = 19 from rfl] at bound
        refine solid (taken ▸ slashed _ (List.mem_range.mpr (by omega)) (taken.symm ▸ last))

/-- After the third replacement, no URL has credentials. -/
theorem urls_fine {before : Option Nat} {text : Text} {ps : List (Piece Nat)} (cut : Cut urls before text ps) :
    Everywhere FineUrl before (joined (fun _ => hidden) ps) := by
  induction cut with
  | done =>
    intro u l same isUrl
    obtain ⟨p,z,_,rfl,_⟩ := url_parts isUrl
    exact absurd same (by simp)
  | @copy before c rest ps none_ more ih =>
    rw [joined_copied]
    refine ⟨fun w l shape isUrl => ?_,ih⟩
    obtain same | ⟨u,m,o,y,rfl,_,same⟩ := cut_first (fun _ => hidden) more
    · rw [same] at shape
      exact urls_complete isUrl (shape ▸ none_)
    · have shape : (c :: u) ++ (hidden ++ o) = w ++ l := by rw [← shape,same]; rfl
      have again {e : Text} (whole : c :: u = w ++ e) : False := by
        have text_ : c :: (u ++ m) = w ++ (e ++ m) := by rw [← List.append_assoc,← whole]; rfl
        exact urls_complete isUrl (text_ ▸ none_)
      obtain ⟨e,rfl,tails⟩ | ⟨e,whole,_⟩ := List.append_eq_append_iff.mp shape
      · by_cases nothing : e = []
        · exact again (e := []) (by rw [nothing]; simp)
        · exact no_url_over_hidden (List.cons_ne_nil c u) nothing tails isUrl
      · exact again whole
  | @find before text y ps found more ih =>
    rw [joined_found]
    exact Everywhere.append (fun a c b shape u l same => no_url_in_hidden shape same) (ih.change ih.here)

/-! ### The whole -/

theorem spelled_ne_nil {words : List Text} (some_ : [] ∉ words) (w : Text) (spelled : w.map fold ∈ words) : w ≠ [] := by
  obtain ⟨c,rest,rfl⟩ := spelled_cons spelled some_
  exact List.cons_ne_nil c rest

theorem tokens_taking : Taking tokens :=
  taking_right (taking_left (taking_group ((Regex.spells_words fold (ascii "bearer") [ascii "basic"]).taking (spelled_ne_nil (by decide)))))

theorem secrets_taking : Taking secrets := by
  refine taking_left (taking_group (spells_key.taking (fun k isKey => ?_)))
  obtain ⟨_,_,_,_,c,l,rfl,_⟩ := key_cons isKey
  exact List.cons_ne_nil c l

theorem urls_taking : Taking urls := by
  refine spells_urls.taking (fun u isUrl => ?_)
  obtain ⟨p,r,_,rfl,_⟩ := url_parts isUrl
  simp

/-- A text in which every credential stands replaced. -/
structure Calm (text : Text) : Prop where
  token : Everywhere FineToken none text
  secret : Everywhere FineSecret none text
  url : Everywhere FineUrl none text

/-- What is left after the replacements. -/
theorem redacted_calm {x : Text} (ended : ∀ y ∈ matchAll secrets (redactTokens x),Ends bare y.rest) :
    Calm (redactUrls (redactSecrets (redactTokens x))) := by
  have first := text_cut tokens_taking x
  have second := text_cut secrets_taking (redactTokens x)
  have third := text_cut urls_taking (redactSecrets (redactTokens x))
  have ended : ∀ y, .found y ∈ pieces secrets (redactTokens x).length none (redactTokens x) → Ends bare y.rest :=
    fun y member => ended y (List.mem_filterMap.mpr ⟨_,member,rfl⟩)
  have tokens_ := secrets_keep_tokens second ended (tokens_fine first)
  exact ⟨urls_keep_tokens third tokens_,urls_keep_secrets third (secrets_fine second ended),urls_fine third⟩

/-! #### What stands in place of the credentials -/

/-- A word without a name of a secret, as the mark is one. -/
def Word (f : Text) : Prop := f ≠ [] ∧ (∀ c ∈ f,letter c = true ∨ c = 91 ∨ c = 93) ∧ ∀ name ∈ names,¬name <:+: f.map fold

theorem mark_word : Word mark := by
  have nowhere : ∀ name ∈ names,∀ i ∈ List.range 11,name.isPrefixOf ((mark.map fold).drop i) = false := by decide
  refine ⟨by decide,by decide,?_⟩
  rintro name member ⟨a,b,same⟩
  have bound := congrArg List.length same
  rw [List.length_append,List.length_append,List.length_map,show mark.length = 10 from rfl] at bound
  have begins : name <+: (mark.map fold).drop a.length := by
    rw [← same,List.append_assoc,List.drop_left]
    exact List.prefix_append name b
  rw [← List.isPrefixOf_iff_prefix,nowhere name member a.length (List.mem_range.mpr (by omega))] at begins
  cases begins

/-- A text made of the pieces of another, with any words in place of what was found; of a
    match `lead` is left before the word. -/
inductive Recast (lead : Text → Text) : List (Piece Nat) → Text → Prop where
  | done : Recast lead [] []
  | copied {c : Nat} {ps : List (Piece Nat)} {t : Text} (more : Recast lead ps t) : Recast lead (.copied c :: ps) (c :: t)
  | found {y : Place Nat} {f : Text} {ps : List (Piece Nat)} {t : Text} (word : Word f) (more : Recast lead ps t) :
      Recast lead (.found y :: ps) (lead y.captured ++ (f ++ t))

/-- The line with other credentials after `Bearer` and `Basic`. -/
def OtherTokens (x x' : Text) : Prop := Recast (fun scheme => scheme ++ [32]) (pieces tokens x.length none x) x'
/-- The line with other values of the secrets. -/
def OtherSecrets (x x' : Text) : Prop := Recast id (pieces secrets x.length none x) x'

theorem recast_joined (lead : Text → Text) (ps : List (Piece Nat)) : Recast lead ps (joined (fun captured => lead captured ++ mark) ps) := by
  induction ps with
  | nil => exact .done
  | cons piece ps ih =>
    cases piece with
    | copied c => exact .copied ih
    | found y =>
      rw [joined_found,List.append_assoc]
      exact .found mark_word ih

theorem otherTokens_redact (x : Text) : OtherTokens x (redactTokens x) := by
  have same : (fun scheme : Text => scheme ++ 32 :: mark) = fun scheme => scheme ++ [32] ++ mark := by
    funext scheme
    simp
  unfold OtherTokens redactTokens replaceAll
  rw [same]
  exact recast_joined (fun scheme => scheme ++ [32]) _

theorem otherSecrets_redact (x : Text) : OtherSecrets x (redactSecrets x) := recast_joined id _

/-- Whatever the credentials of a line are, its secrets end where values without quotes
    would end, and no control character is left of it. -/
structure Tight (x : Text) : Prop where
  ended : ∀ x', OtherTokens x x' → ∀ y ∈ matchAll secrets x',Ends bare y.rest
  taken : ∀ x' x'', OtherTokens x x' → OtherSecrets x' x'' → ∀ c, .copied c ∈ pieces urls x''.length none x'' → removed c = false

/-- The filter finds nothing where no control character is left. -/
theorem redacted_plain {x : Text} (tight : Tight x) : ∀ c ∈ redactUrls (redactSecrets (redactTokens x)),removed c = false := by
  have copies := tight.taken _ _ (otherTokens_redact x) (otherSecrets_redact (redactTokens x))
  have whole : ∀ c ∈ hidden,removed c = false := by decide
  intro c member
  obtain ⟨piece,inside,left⟩ := List.mem_flatMap.mp member
  cases piece with
  | copied d =>
    obtain rfl := List.mem_singleton.mp left
    exact copies c inside
  | found y => exact whole c left

/-- A calm text that is cut is only completed. -/
theorem calm_take {t : Text} (calm : Calm t) (n : Nat) : ∃ m, n ≤ m ∧ redactUrls (redactSecrets (redactTokens (t.take n))) = t.take m := by
  obtain ⟨a,first,same⟩ := settled_take tokens_taking (calm.token.imp settled_token) (text_cut tokens_taking (t.take n))
  obtain ⟨b,second,same'⟩ := settled_take secrets_taking (calm.secret.imp settled_secret) (text_cut secrets_taking (t.take a))
  obtain ⟨c,third,same''⟩ := settled_take urls_taking (calm.url.imp (settled_url (fun _ => hidden)))
    (text_cut urls_taking (t.take b))
  refine ⟨c,by omega,?_⟩
  rw [redactTokens,replaceAll,same,redactSecrets,replaceAll,same',redactUrls,replaceAll]
  exact same''

/-- Nothing that the expressions find in a text is without its mark. -/
structure Sanitized (text : Text) : Prop where
  token : Everywhere (Replaced tokens (fun scheme => scheme ++ 32 :: mark)) none text
  secret : Everywhere (Replaced secrets (fun name => name ++ mark)) none text
  url : Everywhere (fun before rest => urls.exec before rest = none) none text

theorem no_url_cut {before : Option Nat} {text : Text} (fine : FineUrl before text) (n : Nat) : urls.exec before (text.take n) = none := by
  by_contra found
  obtain ⟨y,found⟩ := Option.ne_none_iff_exists'.mp found
  obtain ⟨u,shape,isUrl,_⟩ := urls_sound found
  refine fine u (y.rest ++ text.drop n) ?_ isUrl
  rw [← List.append_assoc,← shape,List.take_append_drop]

theorem calm_sanitized {t : Text} (calm : Calm t) (n : Nat) : Sanitized (t.take n) :=
  ⟨calm.token.take (fun fine => settled_replaced (settled_token fine)) n,
    calm.secret.take (fun fine => settled_replaced (settled_secret fine)) n,calm.url.take no_url_cut n⟩

/-- A line is sanitized once and for all if its secrets end where values without quotes
    would end and the expressions take all its control characters. -/
theorem sanitize_stable (x : Text) (tight : Tight x) : sanitizeLog (sanitizeLog x) = sanitizeLog x ∧ Sanitized (sanitizeLog x) := by
  have calm := redacted_calm (tight.ended _ (otherTokens_redact x))
  have plain := redacted_plain tight
  have unfiltered : sanitizeLog x = (redactUrls (redactSecrets (redactTokens x))).take 4096 := by
    rw [sanitizeLog,List.filter_eq_self.mpr (fun c member => by simp [plain c member])]
  rw [unfiltered]
  refine ⟨?_,calm_sanitized calm 4096⟩
  obtain ⟨m,long,same⟩ := calm_take calm 4096
  have kept : ∀ c ∈ (redactUrls (redactSecrets (redactTokens x))).take m,removed c = false :=
    fun c member => plain c (List.mem_of_mem_take member)
  rw [sanitizeLog,same,List.filter_eq_self.mpr (fun c member => by simp [kept c member]),List.take_take,Nat.min_eq_left long]

theorem recast_copied {lead : Text → Text} {t t' : Text} (recast : Recast lead (t.map .copied) t') : t' = t := by
  induction t generalizing t' with
  | nil =>
    cases recast with
    | done => rfl
  | cons c t ih =>
    cases recast with
    | copied more => rw [ih more]

/-- What another text is made of. -/
theorem recast_units {lead : Text → Text} {ps : List (Piece Nat)} {t : Text} (recast : Recast lead ps t) : ∀ c ∈ t,
    .copied c ∈ ps ∨ (∃ y, .found y ∈ ps ∧ c ∈ lead y.captured) ∨ letter c = true ∨ c = 91 ∨ c = 93 := by
  induction recast with
  | done => exact fun _ wrong => (by cases wrong)
  | copied _ ih =>
    intro c member
    rcases List.mem_cons.mp member with rfl | later
    · exact .inl List.mem_cons_self
    · rcases ih c later with copied | ⟨y,found,inside⟩ | spelled
      · exact .inl (List.mem_cons_of_mem _ copied)
      · exact .inr (.inl ⟨y,List.mem_cons_of_mem _ found,inside⟩)
      · exact .inr (.inr spelled)
  | @found y f ps t word _ ih =>
    intro c member
    rcases List.mem_append.mp member with before | member
    · exact .inr (.inl ⟨y,List.mem_cons_self,before⟩)
    rcases List.mem_append.mp member with inside | later
    · exact .inr (.inr (word.2.1 c inside))
    · rcases ih c later with copied | ⟨y',found,inside⟩ | spelled
      · exact .inl (List.mem_cons_of_mem _ copied)
      · exact .inr (.inl ⟨y',List.mem_cons_of_mem _ found,inside⟩)
      · exact .inr (.inr spelled)

theorem letter_kept {c : Nat} (holds : letter c = true ∨ c = 91 ∨ c = 93) : removed c = false := by
  simp only [letter,removed,Bool.or_eq_true,Bool.and_eq_true,Bool.or_eq_false_iff,Bool.and_eq_false_iff,decide_eq_true_eq,
    decide_eq_false_iff_not] at holds ⊢
  omega

/-- A secret with a control character. -/
def line : Text := ascii "a Token=\"b\x01\", done"

/-- Whether the units of a piece that are left are none that the filter removes. -/
def clean : Piece Nat → Bool
  | .copied c => !removed c
  | .found y => y.captured.all (fun c => !removed c)

theorem sanitize_stable_line : sanitizeLog (sanitizeLog line) = sanitizeLog line ∧ Sanitized (sanitizeLog line) := by
  -- no token is found, so the line is as it is
  have tokenless : pieces tokens line.length none line = line.map .copied := by rfl
  have same : ∀ {x'}, OtherTokens line x' → x' = line := by
    intro x' other
    unfold OtherTokens at other
    rw [tokenless] at other
    exact recast_copied other
  refine sanitize_stable line ⟨fun x' other => ?_,fun x' x'' other other' c copied => ?_⟩
  · rw [same other]
    decide
  · rw [same other] at other'
    have cleaned : ∀ piece ∈ pieces secrets line.length none line,clean piece = true := by decide
    rcases recast_units other' c ((text_cut urls_taking x'').copied_mem copied) with kept | ⟨y,found,inside⟩ | spelled
    · simpa [clean] using cleaned _ kept
    · have all := cleaned _ found
      simp only [clean,List.all_eq_true,Bool.not_eq_true'] at all
      exact all c inside
    · exact letter_kept spelled

/-- What is left of a line with a control character in `Bearer`, or with more of the
    line directly after a quoted secret, is changed again. -/
theorem sanitized_again : sanitizeLog (ascii "Bea\x01rer b") = ascii "Bearer b" ∧
    sanitizeLog (sanitizeLog (ascii "Bea\x01rer b")) = ascii "Bearer [redacted]" ∧
    sanitizeLog (ascii "token=\"a\"b") = ascii "token=[redacted]b" ∧
    sanitizeLog (sanitizeLog (ascii "token=\"a\"b")) = ascii "token=[redacted]" := by
  decide

end Expbuild.Sanitizing
