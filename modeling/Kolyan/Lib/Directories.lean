/-
# Directories of files

A directory is the contents of its names.  A file is written as a whole, removed, or
renamed over another one; a name that is not there cannot be removed or renamed.  Each
operation leaves every name alone that it is not about.
-/

import Mathlib

/-- The contents of the files of a directory, by name. -/
abbrev Directory (N C : Type*) := N → Option C

namespace Directory

variable {N C : Type*} [DecidableEq N] (d : Directory N C) {n m k : N} {c : C}

def empty : Directory N C := fun _ => none

/-- Write a file. -/
def write (n : N) (c : C) : Directory N C := Function.update d n (some c)

/-- The directory without a name. -/
def without (n : N) : Directory N C := Function.update d n none

/-- Remove a file; false if there is none. -/
def remove (n : N) : Bool × Directory N C := ((d n).isSome, d.without n)

/-- Rename a file, over the one that has the new name. -/
def rename (n m : N) : Option (Directory N C) := (d n).map ((d.without n).write m)

@[simp] theorem write_self : d.write n c n = some c := Function.update_self ..

@[simp] theorem write_other (h : m ≠ n) : d.write n c m = d m := Function.update_of_ne h ..

@[simp] theorem without_self : d.without n n = none := Function.update_self ..

@[simp] theorem without_other (h : m ≠ n) : d.without n m = d m := Function.update_of_ne h ..

end Directory
