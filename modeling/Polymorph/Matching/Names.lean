import Polymorph.Host
import Polymorph.Matching.Score
import Polymorph.Matching.SequenceMatcher
import Polymorph.Model.Schema
import Polymorph.StandardHost
import Mathlib.Data.List.Dedup

/-!
# Field names

Normalised names, synonym tokens and the similarity of two fields' names and aliases.
-/

set_option autoImplicit false

namespace Polymorph

open ScoreArith

/-- An environment with the Unicode tables that normalised names read. -/
structure TextHost extends Host where
  /-- `text.casefold()` -/
  casefold : String → String
  /-- `unicodedata.normalize("NFKD", text)` -/
  nfkd : String → String
  /-- `unicodedata.combining(char)` is not zero -/
  combining : Char → Bool

/-- A character that `[a-z0-9]` matches. -/
def isLowerOrDigit (c : Char) : Bool := c.isLower || c.isDigit

/-- `_CAMEL.sub(" ", value)` -/
def splitCamel : List Char → List Char
  | c :: d :: rest =>
      if isLowerOrDigit c && d.isUpper then c :: ' ' :: splitCamel (d :: rest)
      else c :: splitCamel (d :: rest)
  | rest => rest

namespace TextHost

variable (T : TextHost)

/-- `text.split()` -/
def splitWords (text : List Char) : List (List Char) :=
  (text.splitOnP T.isSpace).filter fun word => !word.isEmpty

/-- `normalize_name` -/
def normalizeName (value : String) : String :=
  let decomposed := T.nfkd (T.casefold (String.ofList (splitCamel value.toList)))
  let withoutMarks := decomposed.toList.filter fun c => !T.combining c
  let separated := withoutMarks.map fun c => if T.isAlnum c then c else ' '
  String.ofList (List.intercalate [' '] (T.splitWords separated))

end TextHost

/-- `_SYNONYM_GROUPS` -/
def synonymGroups : List (List String) :=
  [["customer", "client", "kunde", "debitor"],
   ["number", "num", "nr", "no", "nummer"],
   ["id", "identifier", "kennung", "key"],
   ["email", "mail", "emailaddress", "mailaddress"],
   ["date", "datum"],
   ["time", "zeit"],
   ["amount", "betrag", "sum", "total", "value", "wert"],
   ["price", "preis"],
   ["net", "netto"],
   ["gross", "brutto"],
   ["password", "passwort", "kennwort", "secret"],
   ["token", "credential", "credentials", "zugang", "access"],
   ["order", "auftrag", "bestellung"],
   ["invoice", "rechnung"],
   ["product", "produkt", "article", "artikel"],
   ["quantity", "qty", "menge", "anzahl"],
   ["name", "bezeichnung", "title", "titel"]]

/-- `_SYNONYMS.get(token, token)` -/
def synonym (token : String) : String :=
  synonymGroups.zipIdx.foldl
    (fun found group => if token ∈ group.1 then "g" ++ toString group.2 else found) token

/-- `set(normalized_tokens(value))` -/
def TextHost.tokenSet (T : TextHost) (value : String) : List String :=
  ((T.splitWords (T.normalizeName value).toList).map fun word => synonym (String.ofList word)).dedup

/-- The best pair of names so far. -/
structure BestName (S : Type) where
  score : S
  jaccard : S
  sequence : S
  usedAlias : Bool

section Similarity

variable {S : Type} [ScoreArith S] (T : TextHost)

/-- `len(lt & rt) / len(lt | rt)` -/
def jaccardIndex (left right : List String) : S :=
  let union := (left ++ right).dedup
  if union.isEmpty then lit 0
  else div (lit (left.countP fun token => token ∈ right)) (lit union.length)

/-- `SequenceMatcher(a=left, b=right).ratio()` of two names that are not empty. -/
def sequenceRatio (left right : String) : S :=
  if left.isEmpty || right.isEmpty then lit 0
  else
    div (mul (lit 2) (lit (SequenceMatcher.blockTotal left.toList right.toList)))
      (lit (left.length + right.length))

/-- One pass of the inner loop of `name_similarity`. -/
def improveName (best : BestName S) (left right : String × Nat) : BestName S :=
  let jaccard : S := jaccardIndex (T.tokenSet left.1) (T.tokenSet right.1)
  let sequence : S := sequenceRatio (T.normalizeName left.1) (T.normalizeName right.1)
  let score := add (mul (lit 0.62) jaccard) (mul (lit 0.38) sequence)
  if lt best.score score then
    ⟨score, jaccard, sequence, decide (0 < left.2 ∨ 0 < right.2)⟩
  else best

/-- `name_similarity` -/
def nameSimilarity (left right : FieldDescriptor) : S × List String :=
  let leftVariants := left.name :: left.aliases
  let rightVariants := right.name :: right.aliases
  let normalizedLeft := (leftVariants.map T.normalizeName).filter fun name => !name.isEmpty
  let normalizedRight := (rightVariants.map T.normalizeName).filter fun name => !name.isEmpty
  if !(T.normalizeName left.name).isEmpty && T.normalizeName left.name = T.normalizeName right.name
  then (lit 1, ["exact normalized name"])
  else if normalizedLeft.any fun name => name ∈ normalizedRight then (lit 0.98, ["alias match"])
  else
    let best := leftVariants.zipIdx.foldl
      (fun best l => rightVariants.zipIdx.foldl (fun best r => improveName T best l r) best)
      (⟨lit 0, lit 0, lit 0, false⟩ : BestName S)
    (best.score,
      (if eq best.jaccard (lit 0) then [] else ["token overlap " ++ format2 best.jaccard]) ++
      (if le (lit 0.6) best.sequence then ["name similarity " ++ format2 best.sequence] else []) ++
      if best.usedAlias then ["relation alias evidence"] else [])

end Similarity

/-- The standard environment with the Unicode tables of ASCII. -/
noncomputable def standardTextHost : TextHost where
  toHost := standardHost
  casefold text := String.ofList (text.toList.map Char.toLower)
  nfkd text := text
  combining _ := false

end Polymorph
