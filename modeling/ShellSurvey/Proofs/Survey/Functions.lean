import ShellSurvey.Proofs.Param.Body
import ShellSurvey.Proofs.Survey.Session

/-!
# Functions of a script

What a survey tells about a function comes from two readings of one text: the parameters are
inferred from the body as it was captured, and the body is kept in its normal form. The standard
query captures the body for both (`textD_params_of_mem_functionsAt`), so the two agree
(`signature_of_stored_body`): whoever infers the parameters of a body that is told gets those that
are told with it.
-/

namespace ShellSurvey.Survey

variable {settings : ExtractionSettings} {script : Script}

/-- The standard query for functions takes the parameters from the body. -/
theorem textD_params_of_mem_functionsAt {source : List UInt8} {place : Place} {captures : Captures}
    (h : captures ∈ Query.functionsAt source place) (default : String) :
    captures.textD "function.params" default = captures.textD "function.body" "" := by
  rw [Query.functionsAt] at h
  split at h
  · split_ifs at h
    · obtain ⟨name, -, rfl⟩ := List.mem_map.mp h
      rfl
    · cases h
  · cases h

/-- The parameters of a function can be told from its normalized body. -/
theorem infer_body_functionAt {captures : Captures}
    (h : captures.textD "function.params" (captures.textD "function.body" "") =
      captures.textD "function.body" "") (remarks : List Remark) (anchor : Capture) :
    let function := functionAt Transforms.standard settings script remarks captures anchor
    Param.infer function.body.toList = function.params.map Param.unified := by
  simp only [functionAt, Transforms.standard, h, String.toList_ofList, Param.infer_normalBody]

/-- The parameters of every function of a script can be told from its stored body. -/
theorem infer_body_of_mem_functions {errorCount : Nat} {root : Node} {function : Function}
    (h : function ∈ (assemble Grammar.standard settings script errorCount
      fun category => Query.run category script.bytes root).functions) :
    Param.infer function.body.toList = function.params.map Param.unified := by
  obtain ⟨captures, hfound, hcaptures⟩ := List.mem_filterMap.mp h
  obtain ⟨place, -, hplace⟩ := List.mem_flatMap.mp hfound
  rw [function?] at hcaptures
  obtain ⟨-, hcaptures⟩ := Option.ite_none_left_eq_some.mp hcaptures
  obtain ⟨anchor, -, rfl⟩ := Option.map_eq_some_iff.mp hcaptures
  exact infer_body_functionAt (textD_params_of_mem_functionsAt hplace _) _ anchor

/-- **A stored body and the signature stored with it agree.** The parameters of a normal body are
those of the body, line endings in default texts apart: as many, with the same names and the same
marks. And the parameters that a survey tells with a function are those of the body it tells. -/
theorem signature_of_stored_body (body : List Char) :
    Param.infer (Script.normalBody body) = (Param.infer body).map Param.unified ∧
      (Param.infer (Script.normalBody body)).map (fun p => (p.name, p.optional, p.rest)) =
        (Param.infer body).map (fun p => (p.name, p.optional, p.rest)) ∧
      ∀ (session : Session) (settings : ExtractionSettings) (script : Script) (root : Node),
        session.Reached Grammar.standard →
        ∃ facts, (run Grammar.standard settings script root session).result = .ok facts ∧
          ∀ function ∈ facts.functions,
            Param.infer function.body.toList = function.params.map Param.unified := by
  have hbody := Param.infer_normalBody body
  refine ⟨hbody, ?_, fun session settings script root hsession => ?_⟩
  · rw [hbody, List.map_map]
    rfl
  · exact ⟨_, run_standard hsession settings script root, fun function =>
      infer_body_of_mem_functions⟩

end ShellSurvey.Survey
