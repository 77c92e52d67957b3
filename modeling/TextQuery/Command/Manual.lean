import TextQuery.Text.LetterCase

/-!
# The manual

The texts that the command line shows about the query language.
-/
namespace TextQuery

inductive Chapter where
  | queries
  | precedence
  | fields
  | ordering
  | errors
deriving DecidableEq

namespace Chapter

/-- The chapter of a name; letter case does not matter, and hyphens stand for underscores. -/
def ofName? (name : String) : Option Chapter :=
  let plain := (Text.lower name.toList).map fun c => if c == '-' then '_' else c
  match String.ofList plain with
  | "syntax" => some queries
  | "precedence" | "operators" | "ops" => some precedence
  | "fields" | "field" => some fields
  | "ordering" | "order" | "match" => some ordering
  | "errors" | "error" => some errors
  | _ => none

/-- Words, phrases, prefixes, keywords and groups. -/
def syntaxText : String :=
  "SYNTAX

WORDS
  Any run of characters other than whitespace, quotes and parentheses.
  Words are matched case-insensitively against the default fields.

    harry
    150064

PHRASES
  Double-quoted words, matched as an exact ordered run of words.
  A backslash escapes the next character inside a phrase.

    \"harry potter\"
    \"say \\\"hi\\\"\"

PREFIXES
  -word      the document must NOT contain the word
  +word      the document must contain the word
  A prefix must touch its operand: \"- film\" is an error.

KEYWORDS
  AND, OR    case-insensitive; \"and\" and \"Or\" are keywords too

GROUPS
  (harry OR ron) -film
"

/-- How the parts of a query bind. -/
def precedenceText : String :=
  "PRECEDENCE

From loosest to tightest:

  1. OR
  2. adjacency (words next to each other)
  3. AND
  4. prefixes (-, +), field scopes and groups

Adjacent words are alternatives. Prefixed operands in the same run are joined
to the alternatives by AND:

  harry potter             or(harry, potter)
  harry potter -150064     and(or(harry, potter), not(150064))
  +harry potter            and(harry, potter)
  a b AND c                or(a, and(b, c))
  a OR b c                 or(a, or(b, c))

Use 'searchql check <query>' to see how a query is read.
"

/-- Field scopes. -/
def fieldsText : String :=
  "FIELDS

  field:operand

Restricts a word, phrase or group to one field. The field name is resolved
through the configured aliases (for example title -> fields.title.value).
When fields are nested, the innermost one applies.

  title:harry
  title:\"harry potter\"
  title:(harry OR ron)
  -body:film

With strict_fields enabled, unknown field names are rejected.
"

/-- Order parameters. -/
def orderingText : String :=
  "ORDERING

The order parameter is either a direction or a match directive.

  asc, desc          sort direction for --sort (anything else is asc)
  match(2001,1001)   documents with these identifiers come first, in this order

Identifiers are compared against the configured key_field (default: nid).
Repeated identifiers keep their first position. Documents not listed follow
in natural order, or by identifier when remainder = \"by_key\".

  searchql search \"harry\" --order \"match(2001,1001)\" --input docs.json
"

/-- What each error means. -/
def errorsText : String :=
  "ERRORS

Every error reports the character offset where it was detected.

  unterminated phrase    a '\"' without its closing quote
  invalid character      a control character in the query
  unexpected token       a token that cannot appear here, such as a stray ')'
  missing operand        '-', '+', 'field:', AND or OR with nothing after it
  empty group            '()'
  unclosed group         '(' without its ')'
  exclusion of an exclusion   '--film' or '-(-film)'
  empty phrase           '\"\"'
  empty query            nothing but whitespace
  nesting too deep       more than 128 groups or field scopes inside each other
  malformed order        a match(...) directive that cannot be read
"

def text : Chapter → String
  | queries => syntaxText
  | precedence => precedenceText
  | fields => fieldsText
  | ordering => orderingText
  | errors => errorsText

end Chapter

/-- The list of chapters and a quick reference. -/
def manualOverview : String :=
  "SEARCHQL DOCUMENTATION

searchql compiles free-text search queries into backend filters. A query is a
list of words and quoted phrases, optionally combined with prefixes, keywords,
field scopes and parentheses.

DOCUMENTATION CATEGORIES

  syntax            Words, phrases, prefixes, keywords and groups
  precedence        How OR, adjacency, AND and prefixes bind
  fields            Restricting words to a single field
  ordering          The order parameter and match(id, ...) directives
  errors            What each compile error means

QUICK REFERENCE

  harry potter           Either word
  \"harry potter\"         Exact phrase
  -film  +harry          Exclude / require
  harry AND potter       Both words
  harry OR potter        Either word
  title:harry            Field scope
  (harry OR ron) -film   Grouping

Run 'searchql doc <category>' for detailed documentation.
"

end TextQuery
