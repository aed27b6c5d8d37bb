import Beyond.Base.Bytes

/-!
# Pathnames

A pathname is resolved from the root or from the working directory, one component after the other; a
component is looked up in the directory that was reached, where `.` and `..` lead elsewhere than to an
entry of it.  Several slashes count as one, and the empty pathname leads nowhere.

`Child` says of the text of a pathname that it names an entry of a directory, and `Entry.resolve_eq` what
this means in every tree.
-/

namespace Beyond
namespace Path

def slash : UInt8 := 0x2f

def dot : UInt8 := 0x2e

def isAbsolute (path : Bytes) : Bool := path.head? == some slash

def components (path : Bytes) : List Bytes :=
  (path.splitOn slash).filter fun component => !component.isEmpty

/-- Something that an entry of a directory can be called. -/
structure IsName (name : Bytes) : Prop where
  nonempty : name ≠ []
  slash : Path.slash ∉ name
  zero : 0 ∉ name
  dot : name ≠ [Path.dot]
  dotDot : name ≠ [Path.dot, Path.dot]

instance (name : Bytes) : Decidable (IsName name) :=
  decidable_of_iff
    (name ≠ [] ∧ Path.slash ∉ name ∧ 0 ∉ name ∧ name ≠ [Path.dot] ∧
      name ≠ [Path.dot, Path.dot])
    ⟨fun ⟨h₁, h₂, h₃, h₄, h₅⟩ => ⟨h₁, h₂, h₃, h₄, h₅⟩,
      fun ⟨h₁, h₂, h₃, h₄, h₅⟩ => ⟨h₁, h₂, h₃, h₄, h₅⟩⟩

/-- `path` is the entry `name` of the directory `dir`; an empty `dir` is the working directory. -/
structure Entry (dir path name : Bytes) : Prop where
  isName : IsName name
  absolute : isAbsolute path = isAbsolute dir
  components : components path = components dir ++ [name]

def Child (dir path : Bytes) : Prop := ∃ name, Entry dir path name

/-! ## Components -/

@[simp] theorem components_nil : components [] = [] := rfl

theorem components_append (p q : Bytes) :
    components (p ++ slash :: q) = components p ++ components q := by
  rw [components, List.splitOn_append_cons_self, List.filter_append]
  rfl

theorem components_of_not_mem {p : Bytes} (h : slash ∉ p) :
    components p = if p = [] then [] else [p] := by
  rw [components, List.splitOn_eq_singleton h]
  cases p with
  | nil => rfl
  | cons b p => rfl

theorem components_slash (p : Bytes) : components (p ++ [slash]) = components p := by
  rw [components_append, components_nil, List.append_nil]

theorem isAbsolute_append {p : Bytes} (hp : p ≠ []) (q : Bytes) :
    isAbsolute (p ++ q) = isAbsolute p := by
  cases p with
  | nil => exact absurd rfl hp
  | cons b p => rfl

theorem isAbsolute_of_not_mem {p : Bytes} (h : slash ∉ p) : isAbsolute p = false := by
  cases p with
  | nil => rfl
  | cons b p =>
      have hb : b ≠ slash := fun heq => h (heq ▸ List.mem_cons_self)
      simpa [isAbsolute] using hb

/-! ## Trees -/

/-- `lookup` finds an entry of a directory, and what `.` and `..` stand for there. -/
structure Tree (ν : Type*) where
  root : ν
  cwd : ν
  lookup : ν → Bytes → Option ν

namespace Tree

variable {ν : Type*}

def walk (t : Tree ν) : ν → List Bytes → Option ν
  | n, [] => some n
  | n, c :: cs => (t.lookup n c).bind fun n' => walk t n' cs

variable (t : Tree ν)

/-- Where a directory is. -/
def directory (dir : Bytes) : Option ν :=
  t.walk (if isAbsolute dir then t.root else t.cwd) (components dir)

/-- Where a pathname leads. -/
def resolve (path : Bytes) : Option ν := if path = [] then none else t.directory path

theorem walk_append (n : ν) (cs ds : List Bytes) :
    t.walk n (cs ++ ds) = (t.walk n cs).bind fun n' => t.walk n' ds := by
  induction cs generalizing n with
  | nil => rfl
  | cons c cs ih =>
      rw [List.cons_append, walk, walk, Option.bind_assoc]
      exact congrArg _ (funext fun n' => ih n')

end Tree

/-- In every tree, an entry is found by one lookup in its directory. -/
theorem Entry.resolve_eq {ν : Type*} (t : Tree ν) {dir path name : Bytes} (h : Entry dir path name) :
    t.resolve path = (t.directory dir).bind fun n => t.lookup n name := by
  have hpath : path ≠ [] := by
    rintro rfl
    have hempty := h.components
    rw [components_nil] at hempty
    exact List.append_ne_nil_of_right_ne_nil _ (List.cons_ne_nil name []) hempty.symm
  rw [Tree.resolve, if_neg hpath, Tree.directory, h.absolute, h.components, Tree.walk_append]
  refine congrArg _ (funext fun n => ?_)
  rw [Tree.walk]
  exact Option.bind_fun_some _

end Path
end Beyond
