import ModelKeeper.Resource.Workload

/-!
# The container of the image store

One container serves the images of all models of a namespace.  Its environment is the address to
listen on, followed by what models add; of variables with one name the first counts
(`EnvVar.distinct`).
-/

namespace ModelKeeper

namespace EnvVar

/-- The variables whose names are not among `seen` and do not occur before. -/
def distinct.go (seen : List String) : List EnvVar → List EnvVar
  | [] => []
  | v :: vs =>
    if seen.contains v.name then distinct.go seen vs else v :: distinct.go (v.name :: seen) vs

/-- The first variable of each name, in order. -/
def distinct (vs : List EnvVar) : List EnvVar := distinct.go [] vs

end EnvVar

namespace ImageStore

def containerName : String := "ollama-server"
def portName : String := "ollama"
def port : Int := 11434
def volumeName : String := "image-storage"
def mountPath : String := "/root/.ollama"

/-- A look whether the server answers. -/
def probe (timeout : Int) : Probe where
  httpGet := some ⟨some "/api/tags", .name portName⟩
  initialDelay := some 5
  successThreshold := some 1
  failureThreshold := some 2500
  timeout := some timeout

/-- The address that the server listens on: all of them. -/
def hostVariable : EnvVar := { name := "OLLAMA_HOST", value := some "0.0.0.0" }

/-- The server with the volume of images. -/
def container (image : String) (readOnly : Bool) (resources : Option ResourceRequirements)
    (extraEnvFrom : List EnvFromSource) (extraEnv : List EnvVar) : Container where
  name := containerName
  image := some image
  args := some ["serve"]
  ports := some [⟨port, some portName, some "TCP"⟩]
  envFrom := if extraEnvFrom.isEmpty then none else some extraEnvFrom
  env := some (EnvVar.distinct (hostVariable :: extraEnv))
  resources := resources
  volumeMounts := some [⟨mountPath, volumeName, some readOnly⟩]
  livenessProbe := some (probe 1)
  readinessProbe := some (probe 5)

end ImageStore

end ModelKeeper
