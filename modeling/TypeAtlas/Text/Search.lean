namespace TypeAtlas.Text

def hasInfix (part : List Char) : List Char → Bool
  | [] => part.isEmpty
  | c :: text => part.isPrefixOf (c :: text) || hasInfix part text

def startsWith (text start : String) : Bool :=
  start.toList.isPrefixOf text.toList

def endsWith (text ending : String) : Bool :=
  ending.toList.isSuffixOf text.toList

def holds (text part : String) : Bool :=
  hasInfix part.toList text.toList

end TypeAtlas.Text
