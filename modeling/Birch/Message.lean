import Birch.LinkedHashMap
import Birch.OctetClasses

/-!
# Messages

One line of the protocol: tags in insertion order, an optional prefix, a
command and its parameters.
-/

namespace Birch

structure Message where
  prefixText : Text := []
  command : Text := []
  params : List Text := []
  tags : LinkedHashMap Text Text := ∅
  deriving DecidableEq

namespace Message

/-- `AddTag(const std::string&, const std::string&)`. -/
def addTag (message : Message) (key value : Text) : Message :=
  { message with tags := message.tags.assign key value }

/-- `AddTag(std::string&&, std::string&&)`, which is the overload taken for
arguments that may be moved from. -/
def addTagMoved (message : Message) (key value : Text) : Message :=
  { message with tags := message.tags.emplace key value }

def setPrefix (message : Message) (text : Text) : Message :=
  { message with prefixText := text }

def setCommand (message : Message) (command : Text) : Message :=
  { message with command := command }

def addParam (message : Message) (param : Text) : Message :=
  { message with params := message.params ++ [param] }

end Message

/-- The builder holds the message that it fills. -/
structure MessageBuilder where
  message : Message := {}

namespace MessageBuilder

/-- `WithTag(const std::string&, const std::string&)`. -/
def withTag (builder : MessageBuilder) (key value : Text) : MessageBuilder :=
  { builder with message := builder.message.addTag key value }

/-- `WithTag(std::string&&, std::string&&)`. -/
def withTagMoved (builder : MessageBuilder) (key value : Text) :
    MessageBuilder :=
  { builder with message := builder.message.addTagMoved key value }

def build (builder : MessageBuilder) : Message :=
  builder.message

end MessageBuilder

end Birch
