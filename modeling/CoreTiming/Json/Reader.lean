import CoreTiming.Json.Token

namespace CoreTiming.Json

inductive Frame
  | items (done : List Value)
  | members (done : List (Text × Value)) (key : Text)

inductive Expected
  | value
  | valueOrClose
  | key (done : List (Text × Value))
  | keyOrClose
  | colon (done : List (Text × Value)) (key : Text)
  | after (value : Value)

def assemble : List Frame → Expected → List Token → Option Value
  | [], .after value, [] => some value
  | open', .value, .scalar v :: rest | open', .valueOrClose, .scalar v :: rest =>
    assemble open' (.after v) rest
  | open', .value, .text t :: rest | open', .valueOrClose, .text t :: rest =>
    assemble open' (.after (.text t)) rest
  | open', .value, .openArray :: rest | open', .valueOrClose, .openArray :: rest =>
    assemble (.items [] :: open') .valueOrClose rest
  | open', .value, .openObject :: rest | open', .valueOrClose, .openObject :: rest =>
    assemble open' .keyOrClose rest
  | .items done :: open', .valueOrClose, .closeArray :: rest =>
    assemble open' (.after (.array done.reverse)) rest
  | open', .keyOrClose, .closeObject :: rest => assemble open' (.after (.object [])) rest
  | open', .keyOrClose, .text key :: rest => assemble open' (.colon [] key) rest
  | open', .key done, .text key :: rest => assemble open' (.colon done key) rest
  | open', .colon done key, .colon :: rest => assemble (.members done key :: open') .value rest
  | .items done :: open', .after v, .comma :: rest =>
    assemble (.items (v :: done) :: open') .value rest
  | .items done :: open', .after v, .closeArray :: rest =>
    assemble open' (.after (.array (v :: done).reverse)) rest
  | .members done key :: open', .after v, .comma :: rest =>
    assemble open' (.key ((key, v) :: done)) rest
  | .members done key :: open', .after v, .closeObject :: rest =>
    assemble open' (.after (.object ((key, v) :: done).reverse)) rest
  | _, _, _ => none

def read? (document : String) : Option Value :=
  (tokens? document.toList).bind (assemble [] .value)

end CoreTiming.Json
