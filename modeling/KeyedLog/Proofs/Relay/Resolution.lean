import KeyedLog.Proofs.Event.Context
import KeyedLog.Relay

/-!
What a name means to a report. The story of the spans keeps every field that was ever given, in its order; the value of a
name is looked for on the spans from the inside to the outside. The contexts that are kept instead say the same.
-/

namespace KeyedLog

namespace Fields

def last? (fields : Fields) (name : String) : Option String :=
  (fields.reverse.lookup name).map FieldValue.format

end Fields

namespace Spans

variable {spans : Spans}

end Spans

structure SpanStory where
  parent : Option SpanId
  /-- The fields it was opened with, and those recorded on it since. -/
  fields : Fields

def SpanStory.span (story : SpanStory) : Span :=
  { parent := story.parent, values := story.fields.record ∅ }

structure Story where
  spans : List SpanStory := []
  entered : List SpanId := []

namespace Story

/-- What a name means inside a span: what it was given last there or, if it was never given there, what it means
outside. -/
inductive Resolves (story : Story) (name : String) : SpanId → String → Prop where
  | here {id : SpanId} {span : SpanStory} {value : String} (present : story.spans[id]? = some span)
      (given : span.fields.last? name = some value) : Resolves story name id value
  | outside {id parent : SpanId} {span : SpanStory} {value : String} (present : story.spans[id]? = some span)
      (silent : span.fields.last? name = none) (within : span.parent = some parent)
      (further : Resolves story name parent value) : Resolves story name id value

/-- Each span was opened after the one around it, and those that are entered were opened. -/
structure Grounded (story : Story) : Prop where
  older : ∀ id (span : SpanStory) parent, story.spans[id]? = some span → span.parent = some parent → parent < id
  opened : ∀ id ∈ story.entered, id < story.spans.length

variable {story : Story} {name value : String}

end Story

end KeyedLog
