import PageDiff.Proofs.Script.Reading

/-!
# Which lines are in force

The lines of a script in front of one of them, and what they leave in force there: the argument of
the last line with a directive, the block that the lines end in, and the lines since the last line
with a directive.  Everything is a list of raw lines, and every definition has an equation for one
more line at the end.
-/

namespace PageDiff.Script

open PageDiff.Text

/-! ### Arguments -/

/-- The argument of a line with a directive. -/
def argument? (k : Keyword) (raw : List Char) : Option String :=
  match Line.read raw with
  | .directive k' args => if k' = k then some args else none
  | _ => none

theorem argument?_eq_some {k : Keyword} {raw : List Char} {args : String} :
    argument? k raw = some args ↔ Line.read raw = .directive k args := by
  unfold argument?
  cases Line.read raw with
  | directive k' args' =>
    by_cases hk : k' = k
    · simp [hk]
    · simp [hk]
  | blank => simp
  | comment => simp
  | unknown text => simp

/-- The arguments of the lines with a directive, in order. -/
def arguments (k : Keyword) (raws : List (List Char)) : List String := raws.filterMap (argument? k)

/-- The argument of the last line with a directive. -/
def lastArgument? (k : Keyword) (raws : List (List Char)) : Option String :=
  (arguments k raws).getLast?

theorem arguments_concat (k : Keyword) (raws : List (List Char)) (raw : List Char) :
    arguments k (raws ++ [raw]) = arguments k raws ++ (argument? k raw).toList := by
  rw [arguments, List.filterMap_append]
  cases h : argument? k raw with
  | none => simp [h, arguments]
  | some args => simp [h, arguments]

theorem lastArgument?_concat (k : Keyword) (raws : List (List Char)) (raw : List Char) :
    lastArgument? k (raws ++ [raw]) = (argument? k raw).or (lastArgument? k raws) := by
  rw [lastArgument?, arguments_concat]
  cases argument? k raw with
  | none => simp [lastArgument?]
  | some args => simp

/-! ### Blocks -/

/-- Whether a line ends a block. -/
def endsBlock (raw : List Char) : Bool := strip raw == []

theorem endsBlock_iff {raw : List Char} : endsBlock raw = true ↔ Line.read raw = .blank := by
  rw [read_eq_blank, endsBlock, beq_iff_eq]

/-- The lines of the block that the lines end in. -/
def blockOf (raws : List (List Char)) : List (List Char) := raws.rtakeWhile (!endsBlock ·)

@[simp] theorem blockOf_nil : blockOf [] = [] := rfl

theorem blockOf_concat_of_blank {raw : List Char} (h : Line.read raw = .blank)
    (raws : List (List Char)) : blockOf (raws ++ [raw]) = [] := by
  rw [blockOf, List.rtakeWhile_concat_neg]
  simp [endsBlock_iff.mpr h]

theorem blockOf_concat {raw : List Char} (h : Line.read raw ≠ .blank) (raws : List (List Char)) :
    blockOf (raws ++ [raw]) = blockOf raws ++ [raw] := by
  rw [blockOf, List.rtakeWhile_concat_pos]
  · rfl
  · simpa using fun hb => h (endsBlock_iff.mp hb)

/-- The lines after the last line with a directive. -/
def since (k : Keyword) (raws : List (List Char)) : List (List Char) :=
  raws.rtakeWhile fun raw => (argument? k raw).isNone

theorem since_concat_of_some {k : Keyword} {raw : List Char} {args : String}
    (h : argument? k raw = some args) (raws : List (List Char)) : since k (raws ++ [raw]) = [] := by
  rw [since, List.rtakeWhile_concat_neg]
  simp [h]

theorem since_concat_of_none {k : Keyword} {raw : List Char} (h : argument? k raw = none)
    (raws : List (List Char)) : since k (raws ++ [raw]) = since k raws ++ [raw] := by
  rw [since, List.rtakeWhile_concat_pos]
  · rfl
  · simp [h]

/-! ### Actions and captures -/

/-- The action of a line with a click or a wait. -/
def action? (raw : List Char) : Option Action :=
  match Line.read raw with
  | .directive .click selector => some (.click selector)
  | .directive .wait selector => some (.wait selector)
  | _ => none

def actionsOf (raws : List (List Char)) : List Action := raws.filterMap action?

theorem actionsOf_concat (raws : List (List Char)) (raw : List Char) :
    actionsOf (raws ++ [raw]) = actionsOf raws ++ (action? raw).toList := by
  rw [actionsOf, List.filterMap_append]
  cases h : action? raw with
  | none => simp [h, actionsOf]
  | some a => simp [h, actionsOf]

/-- The captures of a script, in order: for each the lines in front of it and its argument. -/
def captures (raws : List (List Char)) : List (List (List Char) × String) :=
  raws.zipIdx.filterMap fun (raw, i) => (argument? .capture raw).map fun args => (raws.take i, args)

theorem captures_concat (raws : List (List Char)) (raw : List Char) :
    captures (raws ++ [raw]) =
      captures raws ++ ((argument? .capture raw).map fun args => (raws, args)).toList := by
  rw [captures, List.zipIdx_append, List.filterMap_append]
  congr 1
  · -- the lines in front of an earlier line are the same as before
    refine List.filterMap_congr ?_
    rintro ⟨x, i⟩ hx
    have hi : i < raws.length := by
      have := List.mem_zipIdx hx
      omega
    show (argument? .capture x).map (fun args => ((raws ++ [raw]).take i, args)) = _
    rw [List.take_append_of_le_length (Nat.le_of_lt hi)]
  · cases h : argument? .capture raw with
    | none => simp [h]
    | some args => simp [h]

end PageDiff.Script
