import StreamDispatch.Registration

/-!
# Drafting a registration in stages

A registration is drafted in five stages, and each stage has calls of its own. First it is said how
to listen, then which topics to read. Then the live topics may be asked to be compared with what is
expected of them, before it is said how to deal with the broker. Then decoders are given, as often
as one likes and in any order, and the handler ends that stage. In the last stage error policies and
names may be given, again as often as one likes, until the registration is built. Where a call may
be repeated the latest one counts.

A `Walk` holds the calls of all stages, so that every walk is one that the stages allow, and
`Walk.draft` is the draft that the calls come to.

## Main definitions

* `ConfigChoice`, `TopicChoice`, `DecoderCall`, `LastCall`: what can be said in each stage.
* `Walk`, `Walk.draft`, `Walk.build`.
* `Walk.keyDecoders`, `Walk.valueDecoders`, `Walk.policies`, `Walk.names`: what is given on the way.
-/

namespace StreamDispatch

/-- How a configuration is chosen. -/
inductive ConfigChoice (α : Type)
  | given (config : α)
  | named (name : String)
  /-- The configuration about which nothing is said. -/
  | standard

/-- What a choice refers to. -/
def ConfigChoice.ref {α : Type} (standard : α) : ConfigChoice α → ConfigRef α
  | .given config => .given config
  | .named name => .named name
  | .standard => .given standard

/-- How topics are chosen. -/
inductive TopicChoice
  | one (topic : String)
  | several (topics : List String)
  /-- Topics together with what is expected of them. -/
  | expected (topics : List TopicExpectation)

/-- The topics that are chosen, with what is expected of them. -/
def TopicChoice.expectations : TopicChoice → List TopicExpectation
  | .one topic => [.named topic]
  | .several topics => topics.map .named
  | .expected topics => topics

/-- A call that gives a decoder. -/
inductive DecoderCall (D : Type)
  | key (decoder : D)
  | value (decoder : D)

namespace DecoderCall

variable {D : Type}

/-- The key decoder, if a call gives one. -/
def key? : DecoderCall D → Option D
  | .key decoder => some decoder
  | .value _ => none

/-- The value decoder, if a call gives one. -/
def value? : DecoderCall D → Option D
  | .key _ => none
  | .value decoder => some decoder

end DecoderCall

/-- A call of the last stage. -/
inductive LastCall
  | onError (policy : ErrorPolicy)
  | called (name : String)

namespace LastCall

/-- The error policy, if a call gives one. -/
def policy? : LastCall → Option ErrorPolicy
  | .onError policy => some policy
  | .called _ => none

/-- The name, if a call gives one. -/
def name? : LastCall → Option String
  | .onError _ => none
  | .called name => some name

end LastCall

/-- The calls of all stages. -/
structure Walk (D H : Type) where
  listener : ConfigChoice ListenerConfig
  topics : TopicChoice
  /-- How often it is asked for that the live topics are compared. -/
  topicChecks : Nat
  consumer : ConfigChoice ConsumerConfig
  decoders : List (DecoderCall D)
  handler : H
  last : List LastCall

variable {D H : Type}

/-- The draft with another decoder. -/
def Draft.decodedBy (draft : Draft D H) : DecoderCall D → Draft D H
  | .key decoder => { draft with keyDecoder := some decoder }
  | .value decoder => { draft with valueDecoder := some decoder }

/-- The draft after a call of the last stage. -/
def Draft.after (draft : Draft D H) : LastCall → Draft D H
  | .onError policy => draft.onError policy
  | .called name => draft.called name

namespace Walk

/-- The key decoders that are given, in order. -/
def keyDecoders (w : Walk D H) : List D := w.decoders.filterMap (·.key?)

/-- The value decoders that are given, in order. -/
def valueDecoders (w : Walk D H) : List D := w.decoders.filterMap (·.value?)

/-- The error policies that are given, in order. -/
def policies (w : Walk D H) : List ErrorPolicy := w.last.filterMap (·.policy?)

/-- The names that are given, in order. -/
def names (w : Walk D H) : List String := w.last.filterMap (·.name?)

/-- The draft before any decoders are given. -/
def start (w : Walk D H) : Draft D H :=
  { Draft.ofHandler w.handler w.topics.expectations with
    listener := w.listener.ref .default
    checksTopics := w.topicChecks ≠ 0
    consumer := w.consumer.ref .default }

/-- The draft that the calls come to. -/
def draft (w : Walk D H) : Draft D H :=
  w.last.foldl Draft.after (w.decoders.foldl Draft.decodedBy w.start)

/-- The registration that is built at the end, or the first thing that is wrong with it. -/
def build (w : Walk D H) : Except Error (Registration D H) := w.draft.build

end Walk

end StreamDispatch
