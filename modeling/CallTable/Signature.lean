import CallTable.Event
import CallTable.Text.Blank
import CallTable.Text.Line
import CallTable.Text.Scan

/-!
# Signature dumps

A signature dump is any text in which aliases of function types stand. An alias calls for a
wrapper if the first parameter line of its function names an encoder. The head `pub type NAME = `
is followed by a line that ends in `fn(`, or by any other line and then such a line. On the next
line the receiver ends at the last comma that text other than a closing parenthesis follows; the
parameters stand between that comma and the next closing parenthesis, one to a line.
-/

namespace CallTable

open Text

/-- A parameter of a function: its name and its type. -/
structure Parameter where
  name : String
  type : String
  deriving DecidableEq, Repr

/-- What one alias of the dump declares: the parameters after the receiver, and the lines of the
parameter list that declare none. -/
structure Signature where
  pointerType : String
  parameters : List Parameter
  dropped : List String
  deriving DecidableEq, Repr

namespace Parameter

/-- Reads a name and its colon, which a blank has to follow. -/
def readLabel? (text : List Char) : Option (List Char × List Char) := do
  let name ← beforeFinal? ':' (text.takeWhile isVisible)
  match text.dropWhile isVisible with
  | [] => none
  | rest => some (name, rest)

/-- The part of the text that is the type: all but the blanks before it, or the last of them if
there is nothing else. One blank always separates the colon from the type. -/
def typeOf? (text : List Char) : Option (List Char) :=
  match text with
  | [] | [_] => none
  | _ =>
    match trimStart text with
    | [] => text.getLast?.map fun blank => [blank]
    | type => some type

/-- Reads a line `name: type,`. The label is the first one of the line, and the type ends at the
last comma. -/
def ofLine? (line : List Char) : Option Parameter := do
  let (name, rest) ← leftmost? readLabel? line
  let (beforeComma, _) ← splitLast? ',' rest
  let type ← typeOf? beforeComma
  some ⟨String.ofList name, String.ofList type⟩

end Parameter

/-- An alias that calls for a wrapper: its name and the text of its parameter list after the
receiver. -/
structure AliasBlock where
  name : List Char
  body : List Char

namespace AliasBlock

/-- The words that an alias begins with. -/
def keyword : List Char :=
  "pub type ".toList

/-- What stands between the name of an alias and its type. -/
def equals : List Char :=
  " = ".toList

/-- What opens the parameter list of a function. -/
def opener : List Char :=
  "fn(".toList

/-- The word that marks a receiver. -/
def marker : List Char :=
  "encoder".toList

/-- The rest of a text after its first line, which may not be empty and has to end. -/
def afterLine? (text : List Char) : Option (List Char) :=
  match text.takeWhile (· ≠ '\n'), text.dropWhile (· ≠ '\n') with
  | _ :: _, _ :: rest => some rest
  | _, _ => none

/-- What stands after a line ends the text. -/
theorem afterLine?_suffix {text rest : List Char} (h : afterLine? text = some rest) :
    rest <:+ text := by
  unfold afterLine? at h
  split at h
  · next hdrop =>
    obtain rfl := Option.some.inj h
    exact (List.suffix_cons _ _).trans (hdrop ▸ List.dropWhile_suffix _)
  · cases h

/-- The rest of a text after its first line, which has to end in `fn(` and a line feed. -/
def afterOpening? (text : List Char) : Option (List Char) :=
  if opener.isSuffixOf (text.takeWhile (· ≠ '\n')) then
    match text.dropWhile (· ≠ '\n') with
    | [] => none
    | _ :: rest => some rest
  else none

/-- What stands after an opening line ends the text. -/
theorem afterOpening?_suffix {text rest : List Char} (h : afterOpening? text = some rest) :
    rest <:+ text := by
  unfold afterOpening? at h
  split at h
  · split at h
    · cases h
    · next hdrop =>
      obtain rfl := Option.some.inj h
      exact (List.suffix_cons _ _).trans (hdrop ▸ List.dropWhile_suffix _)
  · cases h

/-- The rest of a text after the first place of its first line where the word stands. -/
def afterWordInLine? (word : List Char) : List Char → Option (List Char)
  | [] => afterWord? word []
  | c :: text =>
    match afterWord? word (c :: text) with
    | some rest => some rest
    | none => if c = '\n' then none else afterWordInLine? word text

/-- What stands after a word ends the text. -/
theorem afterWordInLine?_suffix {word text rest : List Char}
    (h : afterWordInLine? word text = some rest) : rest <:+ text := by
  fun_induction afterWordInLine? word text with
  | case1 => exact ⟨_, (afterWord?_eq_some_iff.1 h).symm⟩
  | case2 c text found hfound =>
    obtain rfl := Option.some.inj h
    exact ⟨_, (afterWord?_eq_some_iff.1 hfound).symm⟩
  | case3 => cases h
  | case4 c text hnone hc ih => exact (ih h).trans (List.suffix_cons c text)

/-- The rest of a text after one character of its first line. -/
def afterCharacter? : List Char → Option (List Char)
  | [] => none
  | c :: text => if c = '\n' then none else some text

/-- What stands after a character ends the text. -/
theorem afterCharacter?_suffix {text rest : List Char} (h : afterCharacter? text = some rest) :
    rest <:+ text := by
  cases text with
  | nil => cases h
  | cons c text =>
    simp only [afterCharacter?, Option.ite_none_left_eq_some, Option.some.injEq] at h
    exact h.2 ▸ List.suffix_cons c text

/-- The rest of a text after the last comma of its first line that text other than a closing
parenthesis follows. -/
def afterLastComma? : List Char → Option (List Char)
  | [] => none
  | c :: text =>
    if c = '\n' then none
    else match afterLastComma? text with
      | some rest => some rest
      | none =>
        if c = ',' ∧ text.head?.any (· ≠ ')') then some text else none

/-- What stands after a comma ends the text. -/
theorem afterLastComma?_suffix {text rest : List Char} (h : afterLastComma? text = some rest) :
    rest <:+ text := by
  fun_induction afterLastComma? text with
  | case1 => cases h
  | case2 => cases h
  | case3 c text hc found hfound ih =>
    obtain rfl := Option.some.inj h
    exact (ih hfound).trans (List.suffix_cons c text)
  | case4 text hc hnone hfollow =>
    obtain rfl := Option.some.inj h
    exact List.suffix_cons _ _
  | case5 => cases h

/-- The rest of a text after a receiver: on its first line something, the word `encoder`,
something again and a comma. -/
def afterReceiver? (text : List Char) : Option (List Char) := do
  let afterStart ← afterCharacter? text
  let afterName ← afterWordInLine? marker afterStart
  let afterMore ← afterCharacter? afterName
  afterLastComma? afterMore

/-- What stands after a receiver ends the text. -/
theorem afterReceiver?_suffix {text rest : List Char} (h : afterReceiver? text = some rest) :
    rest <:+ text := by
  simp only [afterReceiver?, Option.bind_eq_bind, Option.bind_eq_some_iff] at h
  obtain ⟨_, hstart, _, hname, _, hmore, hcomma⟩ := h
  exact (afterLastComma?_suffix hcomma).trans <| (afterCharacter?_suffix hmore).trans <|
    (afterWordInLine?_suffix hname).trans (afterCharacter?_suffix hstart)

/-- Reads a function type up to the end of its parameter list: the line that opens it, the
receiver and the parameters. -/
def readFunction? (text : List Char) : Option (List Char × List Char) := do
  let parameters ← afterOpening? text >>= afterReceiver?
  some (parameters.takeWhile (· ≠ ')'), parameters.dropWhile (· ≠ ')'))

/-- The parameters of a function and what stands after them end the text. -/
theorem readFunction?_suffix {text body rest : List Char}
    (h : readFunction? text = some (body, rest)) : body ++ rest <:+ text := by
  simp only [readFunction?, Option.bind_eq_bind, Option.bind_eq_some_iff, Option.some.injEq,
    Prod.mk.injEq] at h
  obtain ⟨parameters, ⟨opened, hopening, hreceiver⟩, rfl, rfl⟩ := h
  rw [List.takeWhile_append_dropWhile]
  exact (afterReceiver?_suffix hreceiver).trans (afterOpening?_suffix hopening)

/-- Reads an alias that calls for a wrapper at the head of a text. The function type is looked for
one line further down first. -/
def read? (text : List Char) : Option (AliasBlock × List Char) := do
  let afterKeyword ← afterWord? keyword text
  let name := afterKeyword.takeWhile isVisible
  let head ← afterWord? equals (afterKeyword.dropWhile isVisible)
  let (body, rest) ← (afterLine? head >>= readFunction?).or (readFunction? head)
  if name = [] then none else some (⟨name, body⟩, rest)

/-- Reading an alias leaves less text. -/
theorem length_lt_of_read? {text rest : List Char} {block : AliasBlock}
    (h : read? text = some (block, rest)) : rest.length < text.length := by
  simp only [read?, Option.bind_eq_bind, Option.bind_eq_some_iff, Option.or_eq_some_iff,
    Option.ite_none_left_eq_some, Option.some.injEq, Prod.mk.injEq, Prod.exists] at h
  obtain ⟨afterKeyword, hkeyword, head, hhead, body, rest, hfunction, _, _, rfl⟩ := h
  rw [afterWord?_eq_some_iff] at hkeyword hhead
  have hbody : body ++ rest <:+ head := by
    rcases hfunction with hfurther | ⟨_, hhere⟩
    · obtain ⟨line, hline, hfurther⟩ := hfurther
      exact (readFunction?_suffix hfurther).trans (afterLine?_suffix hline)
    · exact readFunction?_suffix hhere
  have hdrop := (List.dropWhile_suffix isVisible (l := afterKeyword)).length_le
  have hheadLength := congrArg List.length hhead
  have htext := congrArg List.length hkeyword
  have hbodyLength := hbody.length_le
  have hword : keyword.length = 9 := rfl
  simp only [List.length_append, hword] at hheadLength htext hbodyLength
  omega

/-- The lines of a parameter list that are not blank, without the blanks around them. -/
def lines (block : AliasBlock) : List (List Char) :=
  ((Text.lines block.body).map trim).filter (· ≠ [])

/-- The signature that a block declares. -/
def signature (block : AliasBlock) : Signature where
  pointerType := String.ofList block.name
  parameters := block.lines.filterMap Parameter.ofLine?
  dropped := (block.lines.filter (Parameter.ofLine? · |>.isNone)).map String.ofList

/-- The form of an alias that calls for a wrapper. -/
def form : Form AliasBlock := ⟨read?, length_lt_of_read?⟩

/-- The blocks of a dump, in order. -/
def ofDump (dump : String) : List AliasBlock :=
  form.all (unifyLineEnds dump.toList)

end AliasBlock

namespace Signature

/-- One report for each line that declares no parameter. -/
def events (signature : Signature) : List Event :=
  signature.dropped.map fun line => .lineDropped signature.pointerType line

/-- The signatures of a dump, in order. Every dropped line is reported. -/
def ofDump (dump : String) : Logged (List Signature) :=
  let signatures := (AliasBlock.ofDump dump).map AliasBlock.signature
  ⟨signatures, signatures.flatMap events⟩

theorem value_ofDump (dump : String) :
    (ofDump dump).value = (AliasBlock.ofDump dump).map AliasBlock.signature :=
  rfl

end Signature

end CallTable
