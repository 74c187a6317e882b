import LowDimLP.CommandLine.Command
/-!
# Reading options

An option whose value stands by itself is put into the record (`read_cons_cons`), so a command line is read
one option at a time, in whatever order the options stand.
-/

namespace LowDimLP.CommandLine

/-- An option whose value stands by itself is put into the record. -/
theorem read_cons_cons {σ : Type} {fields : List (Field σ)} {field : Field σ} {record next : σ}
    {arg value : String} (name : String) (long : longOption? arg = some (name, none))
    (other : arg ≠ "--" ∧ name ≠ "help") (found : fields.find? (·.name == name) = some field)
    (free : (looksLikeOption value && !field.takesAnything) = false) (put : field.put value record = some next)
    (rest : List String) : read fields record (arg :: value :: rest) = read fields next rest := by
  rw [read, if_neg other.1, long]
  simp only [if_neg other.2, found, put]
  rw [free]
  rfl

variable {α : Type} [NumberText α] {input out : Option String} {direction : Option (List α)} {seed : Option UInt64}
  {slack : Option α} {value : String} (rest : List String)

theorem read_input (free : looksLikeOption value = false) :
    read solveFields ⟨none, direction, seed, slack, out⟩ ("--input" :: value :: rest) =
      read solveFields ⟨some value, direction, seed, slack, out⟩ rest :=
  read_cons_cons "input" (by decide) (by decide) rfl (by simpa using free) rfl rest

theorem read_out (free : looksLikeOption value = false) :
    read solveFields ⟨input, direction, seed, slack, none⟩ ("--out" :: value :: rest) =
      read solveFields ⟨input, direction, seed, slack, some value⟩ rest :=
  read_cons_cons "out" (by decide) (by decide) rfl (by simpa using free) rfl rest

theorem read_seed {word : UInt64} (number : word64? value = some word) (free : looksLikeOption value = false) :
    read solveFields ⟨input, direction, none, slack, out⟩ ("--seed" :: value :: rest) =
      read solveFields ⟨input, direction, some word, slack, out⟩ rest := by
  refine read_cons_cons "seed" (by decide) (by decide) rfl (by simpa using free) ?_ rest
  show (once none (word64? value)).map _ = _
  rw [number]
  rfl

theorem read_direction {xs : List α} (numbers : scalars? value = some xs) :
    read solveFields ⟨input, none, seed, slack, out⟩ ("--direction" :: value :: rest) =
      read solveFields ⟨input, some xs, seed, slack, out⟩ rest := by
  refine read_cons_cons "direction" (by decide) (by decide) rfl (by simp) ?_ rest
  show (scalars? value).map _ = _
  rw [numbers]
  rfl

end LowDimLP.CommandLine
