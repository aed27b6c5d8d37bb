import Mathlib.Data.List.Basic
import Beyond.Base.Bytes

/-!
# Scanning an argument vector

`getopt_long` with an option string that begins with `-:`.  An element that is no option is returned
in its place, an option whose argument is missing is returned as `:`, and one that there is not as
`?`.  The table of the long options has no zeroed entry at its end: a name that is none of the table's
is looked for behind it.

* `scan` is the loop of the caller; `none` is a read behind the table.
* `scan_spelled` reads back what was written, in any of the ways to write an option.
-/

namespace Beyond
namespace Getopt

/-- An entry of the table of long options. -/
structure LongOption where
  name : Bytes
  hasArg : Bool
  val : UInt8
  deriving DecidableEq, Repr

structure Spec where
  /-- The letters of the option string, and which of them have a colon behind them. -/
  short : List (UInt8 × Bool)
  long : List LongOption
  deriving DecidableEq, Repr

/-- What a call of `getopt_long` returns, with `optarg`. -/
inductive Item
  | option (val : UInt8) (arg : Option Bytes)
  | operand (text : Bytes)
  | unknown
  | missing
  deriving DecidableEq, Repr

/-- What an element of the vector is by itself. -/
inductive Element
  /-- The element `--`. -/
  | stop
  | overrun
  | items (items : List Item)
  /-- Its last option takes the next element as its argument. -/
  | awaits (items : List Item) (val : UInt8)
  deriving DecidableEq, Repr

/-! ## Scanning -/

/-- The letters behind a single dash. -/
def letters (spec : Spec) : Bytes → Element
  | [] => .items []
  | c :: text =>
      match spec.short.lookup c with
      | some true => if text = [] then .awaits [] c else .items [.option c (some text)]
      | found =>
          let item := if found.isSome then .option c none else .unknown
          match letters spec text with
          | .items items => .items (item :: items)
          | .awaits items val => .awaits (item :: items) val
          | element => element

/-- The text behind two dashes. -/
def longOption (spec : Spec) (text : Bytes) : Element :=
  match spec.long.find? fun o => o.name = text.takeWhile (· ≠ 0x3d) with
  | none => .overrun
  | some o =>
      match text.dropWhile (· ≠ 0x3d) with
      | _ :: value =>
          if o.hasArg then .items [.option o.val (some value)] else .items [.unknown]
      | [] => if o.hasArg then .awaits [] o.val else .items [.option o.val none]

def element (spec : Spec) : Bytes → Element
  | [0x2d, 0x2d] => .stop
  | 0x2d :: 0x2d :: text => longOption spec text
  | 0x2d :: c :: text => letters spec (c :: text)
  | text => .items [.operand text]

def scan (spec : Spec) : List Bytes → Option (List Item)
  | [] => some []
  | arg :: args =>
      match element spec arg with
      | .stop => some []
      | .overrun => none
      | .items items => (scan spec args).map (items ++ ·)
      | .awaits items val =>
          match args with
          | [] => some (items ++ [.missing])
          | value :: args => (scan spec args).map (items ++ .option val (some value) :: ·)

/-! ## Whole elements -/

variable {spec : Spec}

/-- Elements that give these items, and leave no option without its argument. -/
inductive Whole (spec : Spec) : List Bytes → List Item → Prop
  | nil : Whole spec [] []
  | items {arg : Bytes} {args : List Bytes} {items items' : List Item}
      (h : element spec arg = .items items) (hrest : Whole spec args items') :
      Whole spec (arg :: args) (items ++ items')
  | awaits {arg value : Bytes} {args : List Bytes} {items items' : List Item} {val : UInt8}
      (h : element spec arg = .awaits items val) (hrest : Whole spec args items') :
      Whole spec (arg :: value :: args) (items ++ .option val (some value) :: items')

theorem Whole.append {args args' : List Bytes} {items items' : List Item}
    (h : Whole spec args items) (h' : Whole spec args' items') :
    Whole spec (args ++ args') (items ++ items') := by
  induction h with
  | nil => exact h'
  | items helement _ ih =>
      rw [List.append_assoc]
      exact .items helement ih
  | awaits helement _ ih =>
      rw [List.append_assoc]
      exact .awaits helement ih

theorem scan_whole {args : List Bytes} {items : List Item} (h : Whole spec args items)
    (rest : List Bytes) : scan spec (args ++ rest) = (scan spec rest).map (items ++ ·) := by
  induction h with
  | nil => simp
  | items helement _ ih =>
      simp only [List.cons_append, scan, helement, ih, Option.map_map]
      congr 1
      funext more
      simp
  | awaits helement _ ih =>
      simp only [List.cons_append, scan, helement, ih, Option.map_map]
      congr 1
      funext more
      simp

/-! ## Ways to write an option -/

/-- The dash is no letter, and each long option is found by its name. -/
structure Spec.Good (spec : Spec) : Prop where
  dash : spec.short.lookup 0x2d = none
  long : ∀ o ∈ spec.long, o.name ≠ [] ∧ 0x3d ∉ o.name ∧
    (spec.long.find? fun p => p.name = o.name) = some o

/-- The elements that write some items. -/
inductive Spelled (spec : Spec) : List Bytes → List Item → Prop
  | operand {text : Bytes} (h : text.head? ≠ some 0x2d ∨ text = [0x2d]) :
      Spelled spec [text] [.operand text]
  | letters {c : UInt8} {cs : Bytes} (h : ∀ d ∈ c :: cs, spec.short.lookup d = some false) :
      Spelled spec [0x2d :: c :: cs] ((c :: cs).map fun d => .option d none)
  | joined {c : UInt8} {value : Bytes} (h : spec.short.lookup c = some true) (hvalue : value ≠ []) :
      Spelled spec [0x2d :: c :: value] [.option c (some value)]
  | apart {c : UInt8} {value : Bytes} (h : spec.short.lookup c = some true) :
      Spelled spec [[0x2d, c], value] [.option c (some value)]
  | long {o : LongOption} (h : o ∈ spec.long) (harg : o.hasArg = false) :
      Spelled spec [0x2d :: 0x2d :: o.name] [.option o.val none]
  | longJoined {o : LongOption} {value : Bytes} (h : o ∈ spec.long) (harg : o.hasArg = true) :
      Spelled spec [0x2d :: 0x2d :: (o.name ++ 0x3d :: value)] [.option o.val (some value)]
  | longApart {o : LongOption} {value : Bytes} (h : o ∈ spec.long) (harg : o.hasArg = true) :
      Spelled spec [0x2d :: 0x2d :: o.name, value] [.option o.val (some value)]

theorem letters_flags {cs : Bytes} (h : ∀ d ∈ cs, spec.short.lookup d = some false) :
    letters spec cs = .items (cs.map fun d => .option d none) := by
  induction cs with
  | nil => rfl
  | cons c cs ih =>
      rcases List.forall_mem_cons.1 h with ⟨hc, hcs⟩
      simp [letters, hc, ih hcs]

theorem element_short {c : UInt8} (hc : c ≠ 0x2d) (text : Bytes) :
    element spec (0x2d :: c :: text) = letters spec (c :: text) := by
  unfold element
  split
  · rename_i heq
    cases heq
    exact absurd rfl hc
  · rename_i heq
    cases heq
    exact absurd rfl hc
  · rename_i heq
    cases heq
    rfl
  · rename_i hshort
    exact absurd rfl (hshort c text)

theorem element_long {text : Bytes} (htext : text ≠ []) :
    element spec (0x2d :: 0x2d :: text) = longOption spec text := by
  cases text with
  | nil => exact absurd rfl htext
  | cons c text => rfl

theorem element_operand {text : Bytes} (h : text.head? ≠ some 0x2d ∨ text = [0x2d]) :
    element spec text = .items [.operand text] := by
  unfold element
  split
  · simp at h
  · simp at h
  · simp at h
  · rfl

theorem takeWhile_name {name : Bytes} (hname : 0x3d ∉ name) (value : Bytes) :
    (name ++ 0x3d :: value).takeWhile (· ≠ 0x3d) = name ∧
      (name ++ 0x3d :: value).dropWhile (· ≠ 0x3d) = 0x3d :: value := by
  have hall : ∀ c ∈ name, decide (c ≠ 0x3d) = true := by
    intro c hc
    simpa using ne_of_mem_of_not_mem hc hname
  rw [List.takeWhile_append_of_pos hall, List.dropWhile_append_of_pos hall]
  simp

theorem longOption_joined (hspec : spec.Good) {o : LongOption} {value : Bytes} (h : o ∈ spec.long)
    (harg : o.hasArg = true) :
    longOption spec (o.name ++ 0x3d :: value) = .items [.option o.val (some value)] := by
  rcases hspec.long o h with ⟨-, hname, hfind⟩
  rcases takeWhile_name hname value with ⟨htake, hdrop⟩
  simp only [longOption, htake, hdrop, hfind, harg, if_true]

theorem longOption_name (hspec : spec.Good) {o : LongOption} (h : o ∈ spec.long) :
    longOption spec o.name =
      if o.hasArg then .awaits [] o.val else .items [.option o.val none] := by
  rcases hspec.long o h with ⟨-, hname, hfind⟩
  have hall : ∀ c ∈ o.name, decide (c ≠ 0x3d) = true := by
    intro c hc
    simpa using ne_of_mem_of_not_mem hc hname
  have htake : o.name.takeWhile (· ≠ 0x3d) = o.name := List.takeWhile_eq_self_iff.2 hall
  have hdrop : o.name.dropWhile (· ≠ 0x3d) = [] := List.dropWhile_eq_nil_iff.2 hall
  simp only [longOption, htake, hdrop, hfind]

/-- A letter of the option string is no dash. -/
theorem ne_dash (hspec : spec.Good) {c : UInt8} {b : Bool} (h : spec.short.lookup c = some b) :
    c ≠ 0x2d := by
  rintro rfl
  rw [hspec.dash] at h
  cases h

theorem Spelled.whole (hspec : spec.Good) {args : List Bytes} {items : List Item}
    (h : Spelled spec args items) : Whole spec args items := by
  have hone : ∀ {arg : Bytes} {items : List Item}, element spec arg = .items items →
      Whole spec [arg] items := fun helement => by
    simpa using Whole.items helement .nil
  have htwo : ∀ {arg value : Bytes} {val : UInt8}, element spec arg = .awaits [] val →
      Whole spec [arg, value] [.option val (some value)] := fun helement => by
    simpa using Whole.awaits helement .nil
  cases h with
  | operand h => exact hone (element_operand h)
  | letters h =>
      have hc := h _ List.mem_cons_self
      exact hone ((element_short (ne_dash hspec hc) _).trans (letters_flags h))
  | joined h hvalue =>
      refine hone ((element_short (ne_dash hspec h) _).trans ?_)
      simp [Getopt.letters, h, hvalue]
  | apart h =>
      refine htwo ((element_short (ne_dash hspec h) _).trans ?_)
      simp [Getopt.letters, h]
  | long h harg =>
      refine hone ((element_long (hspec.long _ h).1).trans ?_)
      simp [longOption_name hspec h, harg]
  | longJoined h harg =>
      refine hone ((element_long (by simp)).trans ?_)
      exact longOption_joined hspec h harg
  | longApart h harg =>
      refine htwo ((element_long (hspec.long _ h).1).trans ?_)
      simp [longOption_name hspec h, harg]

/-- What is spelled is read back, item by item. -/
theorem scan_spelled (hspec : spec.Good) {words : List (List Bytes × List Item)}
    (h : ∀ w ∈ words, Spelled spec w.1 w.2) :
    scan spec (words.flatMap Prod.fst) = some (words.flatMap Prod.snd) := by
  have hwhole : Whole spec (words.flatMap Prod.fst) (words.flatMap Prod.snd) := by
    induction words with
    | nil => exact .nil
    | cons w words ih =>
        rcases List.forall_mem_cons.1 h with ⟨hw, hwords⟩
        exact (hw.whole hspec).append (ih hwords)
  simpa [scan] using scan_whole hwhole []

end Getopt
end Beyond
