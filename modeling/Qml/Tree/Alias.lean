/-! # Alias paths

An alias names what it stands for by a path such as `a.b[c.d][e].f`: segments
between dots, each followed by any number of paths in brackets. -/

namespace Qml

mutual

structure AliasPath where
  segments : List AliasSegment

/-- A name or number with the bracketed paths after it. -/
structure AliasSegment where
  name : String
  subscripts : List AliasPath

end

mutual

def AliasPath.text : AliasPath → String
  | ⟨segments⟩ => AliasSegment.joined segments

def AliasSegment.joined : List AliasSegment → String
  | [] => ""
  | [segment] => segment.text
  | segment :: next :: more => segment.text ++ "." ++ AliasSegment.joined (next :: more)

def AliasSegment.text : AliasSegment → String
  | ⟨name, subscripts⟩ => name ++ AliasPath.bracketed subscripts

def AliasPath.bracketed : List AliasPath → String
  | [] => ""
  | path :: more => "[" ++ path.text ++ "]" ++ AliasPath.bracketed more

end

end Qml
