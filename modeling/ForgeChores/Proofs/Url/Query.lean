import ForgeChores.Proofs.Text.Number
import ForgeChores.Url

/-!
# ForgeChores.Proofs.Url.Query

What a URL asks for once pairs of a name and a value have been added to its query.

* `formEncode_of_safe`, `formEncode_repr`: plain names and numbers stand as they are.
* `addQueries_two`: two pairs go behind the query that is there, in order.
-/

namespace ForgeChores
namespace Percent

theorem formEncode_of_safe {s : String} (h : s.toList.all isFormSafe = true) :
    formEncode s = s.toList := by
  unfold formEncode
  rw [List.all_eq_true] at h
  generalize s.toList = l at h ⊢
  induction l with
  | nil => rfl
  | cons c l ih =>
    obtain ⟨hc, hl⟩ := List.forall_mem_cons.mp h
    rw [List.flatMap_cons, ih hl, if_pos hc, List.singleton_append]

theorem formEncode_repr (n : Nat) : formEncode n.repr = n.repr.toList := by
  refine formEncode_of_safe (List.all_eq_true.mpr fun c hc => ?_)
  have hdigit : Text.isDigit c = true := Text.isDigit_of_mem_repr hc
  simp [isFormSafe, hdigit]

end Percent

namespace Url

/-- The URL with more to ask for, behind what it asks for already. -/
def asking (u : Url) (more : String) : Url :=
  { u with query := some (if u.query.getD "" = "" then more else u.query.getD "" ++ "&" ++ more) }

theorem addQuery_eq_asking (u : Url) (name value : String) :
    u.addQuery name value =
      u.asking (String.ofList (Percent.formEncode name) ++ "=" ++
        String.ofList (Percent.formEncode value)) := by
  have hpair : String.ofList (Percent.formEncode name ++ '=' :: Percent.formEncode value) =
      String.ofList (Percent.formEncode name) ++ "=" ++
        String.ofList (Percent.formEncode value) := by
    simp [← String.toList_inj]
  unfold addQuery asking
  rw [hpair]
  cases u.query with
  | none => rfl
  | some q => simp [String.isEmpty_iff]

theorem asking_asking {more : String} (h : more ≠ "") (u : Url) (later : String) :
    (u.asking more).asking later = u.asking (more ++ "&" ++ later) := by
  unfold asking
  by_cases hquery : u.query.getD "" = ""
  · simp [hquery, h]
  · simp [hquery, String.append_assoc]

/-- Two pairs, the second of which has to follow an ampersand. -/
theorem addQueries_two (u : Url) (name value name' value' : String) :
    u.addQueries [(name, value), (name', value')] =
      u.asking (String.ofList (Percent.formEncode name) ++ "=" ++
        String.ofList (Percent.formEncode value) ++ "&" ++
        (String.ofList (Percent.formEncode name') ++ "=" ++
          String.ofList (Percent.formEncode value'))) := by
  simp only [addQueries, List.foldl_cons, List.foldl_nil, addQuery_eq_asking]
  refine asking_asking ?_ _ _
  simp [← String.toList_inj]

end Url
end ForgeChores
