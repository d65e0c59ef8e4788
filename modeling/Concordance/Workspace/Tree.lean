/-!
A file system as a tree. A file holds bytes, a link holds the path it points to, and a folder holds named
children; of children with one name the first counts. A device stands for a special file such as the null
device: whoever reads it gets the same bytes at all times, and what is written to it is taken and forgotten.

Names are texts. A name whose bytes are no text is left out, as are permissions and special files that are
no such device.
-/

namespace Concordance

inductive Tree where
  | file (content : ByteArray)
  | device (content : ByteArray)
  | link (target : String)
  | folder (children : List (String × Tree))

namespace Tree

instance : Inhabited Tree := ⟨folder []⟩

def empty : Tree := folder []

def isFolder : Tree → Bool
  | folder _ => true
  | file _ | device _ | link _ => false

def children : Tree → List (String × Tree)
  | folder children => children
  | file _ | device _ | link _ => []

/-- The child of that name. -/
def child? (t : Tree) (name : String) : Option Tree := t.children.lookup name

/-- What stands at a path of names; links are not followed. -/
def find? : Tree → List String → Option Tree
  | t, [] => some t
  | t, name :: names => (t.child? name).bind fun c => c.find? names

/-- Children with one of them set. -/
def setChild (name : String) (t : Tree) : List (String × Tree) → List (String × Tree)
  | [] => [(name, t)]
  | c :: rest => if c.1 = name then (name, t) :: rest else c :: setChild name t rest

/-- The tree with something put at a path of names, if there are folders down to it. -/
def place (t : Tree) (new : Tree) : List String → Tree
  | [] => new
  | name :: names => match t with
    | folder children =>
      let below := (t.child? name).getD empty
      folder (setChild name (below.place new names) children)
    | file _ | device _ | link _ => t

end Tree

end Concordance
