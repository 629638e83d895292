/-!
Files as they are found.
-/

namespace LinkReconciler

inductive FileContent where
  | missing
  | unreadable (message : String)
  | bytes (content : ByteArray)

namespace FileContent

def text? : FileContent → Option String
  | bytes content => String.fromUTF8? content
  | _ => none

end FileContent

end LinkReconciler
