import Mathlib.Logic.Basic
import RecordSchema.Failure

/-!
# Errors that are handed over

A worker hands over an error by what the error has kept, and its class builds it again.  An error
about records has kept its finished text, and its class takes a text without a context for a
finished one; an error of the system has kept all it was built from.  So both come back as they were
(`ErrorObject.rebuilt_build`).  Only the class of numbers out of range writes its message around
whatever it is given (`ErrorObject.text_rebuilt_range`).  Class and attributes are those of the
error that was raised in every case.

What arrives from a worker is therefore the failure itself, unless it is a number out of range
(`Failure.error_relayed`).
-/

namespace RecordSchema

lemma Failure.withContext_empty (message : String) : withContext message "" = message :=
  if_pos rfl

/-! ### Building an error again -/

namespace ErrorObject

variable {kind : ErrorClass}

/-- An error belongs to the class that has built it. -/
lemma kind_build (kind : ErrorClass) (arguments : List ErrorArgument) :
    (kind.build arguments).kind = kind := by
  cases kind <;> rfl

lemma kind_rebuilt (error : ErrorObject) : error.rebuilt.kind = error.kind :=
  kind_build error.kind error.arguments

lemma attributes_rebuilt (error : ErrorObject) : error.rebuilt.attributes = error.attributes := rfl

/-- What an error has kept is kept once more, unless its class writes its message. -/
lemma arguments_rebuilt (hkind : kind ≠ .range) (arguments : List ErrorArgument) :
    (kind.build arguments).rebuilt.arguments = (kind.build arguments).arguments := by
  -- a finished text is a message without a context
  have hagain : ∀ text : String,
      [ErrorArgument.text (Failure.withContext text "")] = [ErrorArgument.text text] :=
    fun text => by rw [Failure.withContext_empty]
  cases kind with
  | range => exact absurd rfl hkind
  | record | table | input => exact hagain _
  | value | decoding | decimal | system | archive | inflation | ending => rfl

/-- Building an error again gives the same error, unless its class writes its message. -/
theorem rebuilt_build (hkind : kind ≠ .range) (arguments : List ErrorArgument) :
    (kind.build arguments).rebuilt = kind.build arguments :=
  ErrorObject.ext (kind_rebuilt _) (arguments_rebuilt hkind arguments) (attributes_rebuilt _)

/-- The message of a number out of range is written around the text that the error has kept. -/
theorem text_rebuilt_range (arguments : List ErrorArgument) :
    (ErrorClass.range.build arguments).rebuilt.text =
      Failure.rangeMessage (ErrorClass.range.build arguments).text :=
  Failure.withContext_empty _

end ErrorObject

/-! ### Failures -/

namespace Failure

variable {failure : Failure}

/-- The failure has not come from a worker. -/
def IsFirsthand : Failure → Prop
  | .outOfRangeInWorker _ _ => False
  | _ => True

lemma error_eq_build (h : failure.IsFirsthand) :
    failure.error = failure.errorClass.build failure.arguments := by
  unfold error
  split
  · exact absurd h id
  · rfl

lemma relayed_eq_self (h : failure.errorClass ≠ .range) : failure.relayed = failure := by
  unfold relayed
  split
  · exact absurd rfl h
  · rfl

/-- The failure that arrives from a worker stands for the error that has been built again. -/
theorem error_relayed (h : failure.IsFirsthand) :
    failure.relayed.error = failure.error.rebuilt := by
  by_cases hclass : failure.errorClass = .range
  · cases failure with
    | outOfRange literal path => rfl
    | outOfRangeInWorker => exact absurd h id
    | notCompressed fault => cases fault <;> cases hclass
    | _ => cases hclass
  · rw [relayed_eq_self hclass, error_eq_build h, ErrorObject.rebuilt_build hclass]

/-- Only a number out of range is another failure when it arrives, with another message. -/
theorem relayed_cases (h : failure.IsFirsthand) :
    failure.relayed = failure ∨ ∃ literal path, failure = .outOfRange literal path ∧
      failure.relayed = .outOfRangeInWorker literal path ∧
        failure.relayed.message = rangeMessage failure.message := by
  by_cases hrange : ∃ literal path, failure = .outOfRange literal path
  · obtain ⟨literal, path, rfl⟩ := hrange
    refine Or.inr ⟨literal, path, rfl, rfl, ?_⟩
    rw [message, error_relayed h]
    exact ErrorObject.text_rebuilt_range _
  · refine Or.inl ?_
    unfold relayed
    split
    · exact absurd ⟨_, _, rfl⟩ hrange
    · rfl

end Failure

end RecordSchema
