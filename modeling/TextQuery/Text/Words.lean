import TextQuery.Text.Alphanumeric
import TextQuery.Text.Blank
import TextQuery.Text.LetterCase

/-!
# Words of a text

A text is searched in two ways. As a list of words, where only letters and digits count and query
words must be found as a run; or as raw text, where a token with punctuation must be found with
its word edges on word boundaries. Both ignore case.
-/
namespace TextQuery.Text

/-- The lower-case words of a text: its maximal alphanumeric runs. -/
def wordsOf (text : List Char) : List (List Char) :=
  (pieces (fun c => !isAlphanumeric c) text).map lower

def words (text : String) : List String :=
  (wordsOf text.toList).map String.ofList

/-- Whether `needle` stands in the list as a contiguous run; an empty one never does. -/
def containsRun {α : Type} [BEq α] (haystack needle : List α) : Bool :=
  !needle.isEmpty && search haystack
where
  search : List α → Bool
    | [] => false
    | x :: rest => needle.isPrefixOf (x :: rest) || search rest

/-- Whether a word would run on over the edge between these two neighbours. -/
def joinsWord (edge neighbour : Option Char) : Bool :=
  edge.any isWordChar && neighbour.any isWordChar

/-- Whether `token` begins the text, whose preceding character is `before`, with neither of its
edges inside a word. -/
def tokenBegins (token : List Char) (before : Option Char) (text : List Char) : Bool :=
  token.isPrefixOf text && !joinsWord token.head? before &&
    !joinsWord token.getLast? (text.drop token.length).head?

/-- Whether `token` occurs in the text, whose preceding character is `before`, on word
boundaries. Nothing is folded here. -/
def tokenOccurs (token : List Char) (before : Option Char) : List Char → Bool
  | [] => false
  | c :: rest => tokenBegins token before (c :: rest) || tokenOccurs token (some c) rest

/-- Whether the text contains `token` on word boundaries, whatever the case of either; an empty
token is in no text. -/
def containsToken (text token : List Char) : Bool :=
  !(lower token).isEmpty && tokenOccurs (lower token) none (lower text)

/-- Whether a text matches query words. Words of letters and digits alone must be found as a run
of the text's words; if one holds anything else, all of them together must be found in the raw
text, where runs of white space count as one space. -/
def matchesWords (text : List Char) (query : List (List Char)) : Bool :=
  if query.all fun word => word.all isAlphanumeric then
    containsRun (wordsOf text) (query.flatMap wordsOf)
  else
    containsToken (List.intercalate [' '] (blankSeparated text)) (List.intercalate [' '] query)

end TextQuery.Text
