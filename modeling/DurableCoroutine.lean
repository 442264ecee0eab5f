import DurableCoroutine.Types.Registry
import DurableCoroutine.Runtime.Context
import DurableCoroutine.Runtime.Execution
import DurableCoroutine.Runtime.StackBalance
import DurableCoroutine.Runtime.Resumption
import DurableCoroutine.Compiler.BuildTags
import DurableCoroutine.Compiler.Package
import DurableCoroutine.Compiler.Generated
import DurableCoroutine.Compiler.Syntax
import DurableCoroutine.Compiler.Desugar
import DurableCoroutine.Compiler.Termination
import DurableCoroutine.Serde.Generator
import DurableCoroutine.Serde.Output
import DurableCoroutine.Serde.RoundTrip
import DurableCoroutine.Serde.Coverage
import DurableCoroutine.Serde.Text
