import ModelSql.Json.Basic
import ModelSql.Text.Hex
/-!
# Printing JSON

Values are printed without blanks. In strings only quotes, backslashes and
control characters are escaped, with one letter where there is one for the
character.
-/

namespace ModelSql.Json

/-- The letter that stands for a character after a backslash. -/
def escapeLetter? : Char → Option Char
  | '"' => some '"'
  | '\\' => some '\\'
  | '\x08' => some 'b'
  | '\t' => some 't'
  | '\n' => some 'n'
  | '\x0c' => some 'f'
  | '\r' => some 'r'
  | _ => none

/-- A character inside a string. -/
def escape (c : Char) : List Char :=
  match escapeLetter? c with
  | some letter => ['\\', letter]
  | none => if c < ' ' then '\\' :: 'u' :: Text.hexDigits 4 c.toNat else [c]

/-- A string in quotes. One that denotes no text is printed as a lone surrogate. -/
def quote : Option String → List Char
  | some text => '"' :: (text.toList.flatMap escape ++ ['"'])
  | none => '"' :: '\\' :: 'u' :: (Text.hexDigits 4 0xD800 ++ ['"'])

mutual

def characters : Json → List Char
  | null => "null".toList
  | bool true => "true".toList
  | bool false => "false".toList
  | number literal => literal.toList
  | string text => quote text
  | array items => '[' :: itemCharacters items
  | object members => '\x7b' :: memberCharacters members

/-- The items of an array with its closing bracket. -/
def itemCharacters : List Json → List Char
  | [] => [']']
  | [item] => item.characters ++ [']']
  | item :: items => item.characters ++ ',' :: itemCharacters items

/-- The members of an object with its closing brace. -/
def memberCharacters : List (Option String × Json) → List Char
  | [] => ['\x7d']
  | [(name, value)] => quote name ++ ':' :: (value.characters ++ ['\x7d'])
  | (name, value) :: members =>
    quote name ++ ':' :: (value.characters ++ ',' :: memberCharacters members)

end

def render (value : Json) : String := String.ofList value.characters

end ModelSql.Json
