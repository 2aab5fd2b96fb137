import Expbuild.Flags
import Expbuild.Gocache
import Expbuild.Gradlecache
import Expbuild.Nxcache

/-!
The programs of the containers (`cmd/*/main.go`): the flags they take, and what they hand to
`New` of their engine. On a directory with nothing in it each starts with a scope and limits
that its `New` takes.
-/
namespace Expbuild.Commands
open Expbuild.Disks Expbuild.Engines Expbuild.Flags

def text (flags : FlagSet) (name : String) : String :=
  match flags.lookup name with
  | some (.string s) => s
  | _ => ""
def integer (flags : FlagSet) (name : String) : Int :=
  match flags.lookup name with
  | some (.int64 n) => n
  | _ => 0
def truth (flags : FlagSet) (name : String) : Bool :=
  match flags.lookup name with
  | some (.bool b) => b
  | _ => false

/-- The flags that the engines share. -/
def engineFlags (maxEntry : Int) : FlagSet :=
  [("listen",.string ":8080"),("data",.string "/data/cache"),("credentials",.string "/auth/htpasswd"),
   ("max-entry-bytes",.int64 maxEntry),("max-total-bytes",.int64 (16 * 2 ^ 30))]

/-- `cmd/turborepo-cache` -/
def turborepoFlags : FlagSet := engineFlags (256 * 2 ^ 20) ++ [("team",.string "")]
/-- `cmd/nx-cache` -/
def nxFlags : FlagSet := engineFlags (256 * 2 ^ 20) ++ [("namespace",.string "")]
/-- `cmd/go-cache` -/
def goFlags : FlagSet := engineFlags (256 * 2 ^ 20) ++ [("namespace",.string ""),("read-only",.bool true)]
/-- `cmd/gradle-cache` -/
def gradleFlags : FlagSet := engineFlags (2 ^ 30)
/-- `cmd/webdav-stats` -/
def webdavStatsFlags : FlagSet :=
  [("listen",.string ":9093"),("root",.string "/data/content"),("username-file",.string "/auth/probe-username"),
   ("password-file",.string "/auth/probe-password"),("capacity-bytes",.int64 0)]

section
variable (sha256 md5 : List UInt8 → String)

/-! ### `New`, with the check of its scope -/

def turboNew (team : String) (maxEntry maxTotal : Int) (v : Volume FileName (Contents Turbocache.Artifact)) (next : Inode)
    (faults : List Bool) : Option (Store Turbocache.Artifact) :=
  if "team_".toList.isPrefixOf team.toList && Turbocache.validKey team
    then (⟨sha256,maxEntry,maxTotal⟩ : Turbocache.Server).new v next faults else none

def nxNew (scope : String) (maxEntry maxTotal : Int) (v : Volume FileName (Contents Nxcache.Artifact)) (next : Inode)
    (faults : List Bool) : Option (Store Nxcache.Artifact) :=
  if Nxcache.validKey scope then (⟨sha256,maxEntry,maxTotal⟩ : Nxcache.Server).new v next faults else none

def goNew (scope : String) (maxEntry maxTotal : Int) (readOnly : Bool) (v : Volume FileName (Contents Gocache.Artifact))
    (next : Inode) (faults : List Bool) : Option (Store Gocache.Artifact) :=
  if scope = "" || scope.utf8ByteSize > 63 || scope.toList.any (fun c => c = '/' || c = '\\') then none
  else (⟨sha256,md5,maxEntry,maxTotal,readOnly⟩ : Gocache.Server).new v next faults

/-! ### `main` -/

def turborepo (args : List String) (v : Volume FileName (Contents Turbocache.Artifact)) (next : Inode) (faults : List Bool) :
    Option (Store Turbocache.Artifact) :=
  (parse turborepoFlags args).bind fun flags =>
    turboNew sha256 (text flags "team") (integer flags "max-entry-bytes") (integer flags "max-total-bytes") v next faults

def nx (args : List String) (v : Volume FileName (Contents Nxcache.Artifact)) (next : Inode) (faults : List Bool) :
    Option (Store Nxcache.Artifact) :=
  (parse nxFlags args).bind fun flags =>
    nxNew sha256 (text flags "namespace") (integer flags "max-entry-bytes") (integer flags "max-total-bytes") v next faults

def go (args : List String) (v : Volume FileName (Contents Gocache.Artifact)) (next : Inode) (faults : List Bool) :
    Option (Store Gocache.Artifact) :=
  (parse goFlags args).bind fun flags =>
    goNew sha256 md5 (text flags "namespace") (integer flags "max-entry-bytes") (integer flags "max-total-bytes")
      (truth flags "read-only") v next faults

def gradle (args : List String) (v : Volume FileName (Contents Gradlecache.Archive)) (next : Inode) (faults : List Bool) :
    Option (Store Gradlecache.Archive) :=
  (parse gradleFlags args).bind fun flags =>
    (⟨integer flags "max-entry-bytes",integer flags "max-total-bytes"⟩ : Gradlecache.Server).new v next faults

end

/-- The capacity that is reported. -/
def webdavStats (args : List String) : Option Int :=
  (parse webdavStatsFlags args).bind fun flags =>
    let capacity := integer flags "capacity-bytes"
    if capacity ≤ 0 ∨ capacity > 2 ^ 50 then none else some capacity

/-! ### Reading the limits -/

section
variable {maxEntry maxTotal : Nat}

/-- The limits on a command line. -/
def limits (maxTotal maxEntry : Nat) : List String :=
  ["--max-total-bytes=" ++ toString maxTotal,"--max-entry-bytes=" ++ toString maxEntry]

/-- The flags of an engine after its limits. -/
def limited (maxTotal maxEntry : Nat) : FlagSet :=
  [("listen",.string ":8080"),("data",.string "/data/cache"),("credentials",.string "/auth/htpasswd"),
   ("max-entry-bytes",.int64 maxEntry),("max-total-bytes",.int64 maxTotal)]

theorem assign_others {others : FlagSet} {name : String} {new : Value} (apart : others.lookup name = none) :
    others.map (fun f => if f.1 = name then (name,new) else f) = others := by
  have other : ∀ f ∈ others, (if f.1 = name then (name,new) else f) = f := by
    intro f member
    have different := List.lookup_eq_none_iff.mp apart f member
    exact if_neg (fun same => absurd same.symm (by simpa using different))
  simpa using List.map_congr_left other

theorem parse_limits (entry : Int) (others : FlagSet) (rest : List String) (positive : 0 < maxEntry) (least : maxEntry ≤ maxTotal)
    (bounded : maxTotal < 2 ^ 63) (apart : others.lookup "max-total-bytes" = none ∧ others.lookup "max-entry-bytes" = none) :
    parse (engineFlags entry ++ others) (limits maxTotal maxEntry ++ rest) = parse (limited maxTotal maxEntry ++ others) rest := by
  have total := parseInt_toString (n := maxTotal) (by omega) bounded
  have most := parseInt_toString (n := maxEntry) positive (by omega)
  have first : (engineFlags entry ++ others).assign "max-total-bytes" (toString maxTotal) =
      some ([("listen",.string ":8080"),("data",.string "/data/cache"),("credentials",.string "/auth/htpasswd"),
        ("max-entry-bytes",.int64 entry),("max-total-bytes",.int64 maxTotal)] ++ others) := by
    have found : (engineFlags entry ++ others).lookup "max-total-bytes" = some (.int64 (16 * 2 ^ 30)) := rfl
    simp only [FlagSet.assign,found,Value.read,total,Option.map_some,Option.bind_some,List.map_append,assign_others apart.1]
    rfl
  have second : FlagSet.assign ([("listen",.string ":8080"),("data",.string "/data/cache"),("credentials",.string "/auth/htpasswd"),
        ("max-entry-bytes",.int64 entry),("max-total-bytes",.int64 maxTotal)] ++ others) "max-entry-bytes" (toString maxEntry) =
      some (limited maxTotal maxEntry ++ others) := by
    have found : ([("listen",Value.string ":8080"),("data",.string "/data/cache"),("credentials",.string "/auth/htpasswd"),
        ("max-entry-bytes",.int64 entry),("max-total-bytes",.int64 maxTotal)] ++ others).lookup "max-entry-bytes" = some (.int64 entry) := rfl
    simp only [FlagSet.assign,found,Value.read,most,Option.map_some,Option.bind_some,List.map_append,assign_others apart.2]
    rfl
  exact (parse_assigned "--" "max-total-bytes" _ (.inr rfl) rfl first).trans
    (parse_assigned "--" "max-entry-bytes" _ (.inr rfl) rfl second)

theorem turborepo_parsed (team : String) (positive : 0 < maxEntry) (least : maxEntry ≤ maxTotal) (bounded : maxTotal < 2 ^ 63) :
    parse turborepoFlags (("--team=" ++ team) :: limits maxTotal maxEntry) = some (limited maxTotal maxEntry ++ [("team",.string team)]) := by
  have assigned : turborepoFlags.assign "team" team = some (engineFlags (256 * 2 ^ 20) ++ [("team",.string team)]) := rfl
  have rest := parse_limits (256 * 2 ^ 20) [("team",.string team)] [] positive least bounded ⟨rfl,rfl⟩
  rw [List.append_nil] at rest
  exact (parse_assigned "--" "team" team (.inr rfl) rfl assigned).trans rest

theorem nx_parsed (scope : String) (positive : 0 < maxEntry) (least : maxEntry ≤ maxTotal) (bounded : maxTotal < 2 ^ 63) :
    parse nxFlags (("--namespace=" ++ scope) :: limits maxTotal maxEntry) =
      some (limited maxTotal maxEntry ++ [("namespace",.string scope)]) := by
  have assigned : nxFlags.assign "namespace" scope = some (engineFlags (256 * 2 ^ 20) ++ [("namespace",.string scope)]) := rfl
  have rest := parse_limits (256 * 2 ^ 20) [("namespace",.string scope)] [] positive least bounded ⟨rfl,rfl⟩
  rw [List.append_nil] at rest
  exact (parse_assigned "--" "namespace" scope (.inr rfl) rfl assigned).trans rest

theorem go_parsed (scope : String) (readOnly : Bool) (positive : 0 < maxEntry) (least : maxEntry ≤ maxTotal) (bounded : maxTotal < 2 ^ 63) :
    parse goFlags (("--namespace=" ++ scope) :: (limits maxTotal maxEntry ++ ["--read-only=" ++ toString readOnly])) =
      some (limited maxTotal maxEntry ++ [("namespace",.string scope),("read-only",.bool readOnly)]) := by
  have assigned : goFlags.assign "namespace" scope =
      some (engineFlags (256 * 2 ^ 20) ++ [("namespace",.string scope),("read-only",.bool true)]) := rfl
  have rest := parse_limits (256 * 2 ^ 20) [("namespace",.string scope),("read-only",.bool true)] ["--read-only=" ++ toString readOnly]
    positive least bounded ⟨rfl,rfl⟩
  have last : FlagSet.assign (limited maxTotal maxEntry ++ [("namespace",.string scope),("read-only",.bool true)]) "read-only" (toString readOnly) =
      some (limited maxTotal maxEntry ++ [("namespace",.string scope),("read-only",.bool readOnly)]) := by
    cases readOnly <;> rfl
  exact (parse_assigned "--" "namespace" scope (.inr rfl) rfl assigned).trans
    (rest.trans (parse_assigned "--" "read-only" _ (.inr rfl) rfl last))

theorem gradle_parsed (positive : 0 < maxEntry) (least : maxEntry ≤ maxTotal) (bounded : maxTotal < 2 ^ 63) :
    parse gradleFlags (limits maxTotal maxEntry) = some (limited maxTotal maxEntry) := by
  have whole := parse_limits (2 ^ 30) [] [] positive least bounded ⟨rfl,rfl⟩
  rwa [List.append_nil,List.append_nil,List.append_nil] at whole

/-- The capacity of a volume of at most a pebibyte is reported. -/
theorem webdavStats_starts {capacity : Nat} (positive : 0 < capacity) (bounded : capacity ≤ 2 ^ 50) :
    webdavStats ["-capacity-bytes=" ++ toString capacity] = some (capacity : Int) := by
  have read := parseInt_toString positive (lt_of_le_of_lt bounded (by norm_num))
  have assigned : webdavStatsFlags.assign "capacity-bytes" (toString capacity) =
      some [("listen",.string ":9093"),("root",.string "/data/content"),("username-file",.string "/auth/probe-username"),
        ("password-file",.string "/auth/probe-password"),("capacity-bytes",.int64 capacity)] := by
    have found : webdavStatsFlags.lookup "capacity-bytes" = some (.int64 0) := rfl
    simp only [FlagSet.assign,found,Value.read,read,Option.map_some,Option.bind_some]
    rfl
  have parsed : parse webdavStatsFlags ["-capacity-bytes=" ++ toString capacity] = _ :=
    parse_assigned "-" "capacity-bytes" _ (.inl rfl) rfl assigned
  have value : integer [("listen",.string ":9093"),("root",.string "/data/content"),("username-file",.string "/auth/probe-username"),
      ("password-file",.string "/auth/probe-password"),("capacity-bytes",.int64 capacity)] "capacity-bytes" = capacity := rfl
  rw [webdavStats,parsed,parse,Option.bind_some]
  simp only [value]
  exact if_neg (by omega)

end

end Expbuild.Commands
