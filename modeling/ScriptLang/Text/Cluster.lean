import ScriptLang.Text.ClusterRole

/-!
# Grapheme clusters

A text falls into clusters, each of which a reader sees as one character: a letter with its accents, a
syllable, a conjunct with its vowel sign, a flag, a picture joined of several. The rules are those of
the extended grapheme clusters of Unicode.

## Main definitions

* `ClusterEnd`: what the end of a cluster lets follow in it
* `ClusterEnd.joins`: whether a character belongs to the cluster before it
* `clusters`: the clusters of a text
-/

namespace ScriptLang.Text

/-- How much of a conjunct has been read. -/
inductive Conjunct where
  | absent
  /-- A consonant and marks on it. -/
  | begun
  /-- The same with a linking mark among the marks: another consonant goes on with it. -/
  | linked
  deriving DecidableEq, Repr

/-- The conjunct after one more character. -/
def Conjunct.after (conjunct : Conjunct) : ClusterRole → Conjunct
  | .consonant => begun
  | .linking => if conjunct = absent then absent else linked
  | .extending | .joiner => conjunct
  | _ => absent

/-- What the end of a cluster lets follow in it. -/
structure ClusterEnd where
  /-- The role of the last character. -/
  last : ClusterRole
  /-- Whether the last character is a flag letter without the other one of its flag. -/
  halfFlag : Bool
  /-- Whether the end is a picture and marks on it, of which only the last one may be a joiner. -/
  picture : Bool
  conjunct : Conjunct
  deriving DecidableEq, Repr

namespace ClusterEnd

/-- The end of a cluster that has one character so far. -/
def start (role : ClusterRole) : ClusterEnd where
  last := role
  halfFlag := role = .flagLetter
  picture := role = .picture
  conjunct := Conjunct.absent.after role

/-- Whether a picture is still the same one with a character after it. -/
def keepsPicture (e : ClusterEnd) : ClusterRole → Bool
  | .extending | .linking | .nonJoiner | .joiner => e.picture && e.last != .joiner
  | _ => false

/-- The end of a cluster after one more character. -/
def after (e : ClusterEnd) (role : ClusterRole) : ClusterEnd where
  last := role
  halfFlag := role = .flagLetter && !e.halfFlag
  picture := role = .picture || e.keepsPicture role
  conjunct := e.conjunct.after role

/-- Whether a character belongs to the cluster before it. The first rule that applies decides. -/
def joins (e : ClusterEnd) (role : ClusterRole) : Bool :=
  match e.last, role with
  | .carriageReturn, .newline => true
  | .carriageReturn, _ | .newline, _ | .control, _ => false
  | _, .carriageReturn | _, .newline | _, .control => false
  | .leading, .leading | .leading, .vowel => true
  | .leading, .openSyllable | .leading, .closedSyllable => true
  | .vowel, .vowel | .vowel, .trailing => true
  | .openSyllable, .vowel | .openSyllable, .trailing => true
  | .trailing, .trailing | .closedSyllable, .trailing => true
  | _, .extending | _, .linking | _, .nonJoiner | _, .joiner | _, .spacing => true
  | .prepending, _ => true
  | _, .consonant => e.conjunct = .linked
  | .joiner, .picture => e.picture
  | _, .flagLetter => e.halfFlag
  | _, _ => false

end ClusterEnd

/-- The rest of a cluster, and the clusters after it. -/
def clustersAfter (e : ClusterEnd) : List Char → List Char × List (List Char)
  | [] => ([], [])
  | c :: text =>
    let role := roleOf c
    if e.joins role then
      let (rest, others) := clustersAfter (e.after role) text
      (c :: rest, others)
    else
      let (rest, others) := clustersAfter (.start role) text
      ([], (c :: rest) :: others)

/-- The clusters of a text. -/
def clusters : List Char → List (List Char)
  | [] => []
  | c :: text =>
    let (rest, others) := clustersAfter (.start (roleOf c)) text
    (c :: rest) :: others

end ScriptLang.Text
