import ParseView.Json.Fault
import ParseView.Token.VocabularyFile

/-! Failures to load a dump, a vocabulary or a channel table. -/

namespace ParseView

inductive LoadError where
  | dump (fault : Json.Fault)
  | vocabulary (fault : VocabularyFault)
  | channels (fault : ChannelFault)

namespace LoadError

def message (place : Option Json.Place) : LoadError → String
  | dump fault => "malformed dump: " ++ fault.messageAt place
  | vocabulary fault => fault.message
  | channels fault => fault.message

end LoadError

end ParseView
