namespace AccessRules.Text

def isFlag (char : Char) : Bool := 'a' ≤ char && char ≤ 'z'

/-- Whether a text is a pattern literal. Flags hold no slash, so the closing slash
is the last one of the text; the pattern before it may hold slashes but no line
break. -/
def isPattern (text : List Char) : Bool :=
  match text with
  | '/' :: body =>
      match body.reverse.dropWhile isFlag with
      | '/' :: pattern => !pattern.contains '\n'
      | _ => false
  | _ => false

end AccessRules.Text
