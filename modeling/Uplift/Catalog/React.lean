-- The built-in catalog of deprecated React APIs.
import Uplift.Catalog.Rule

namespace Uplift.Catalog

/-- The rules of one category. -/
def reactRules : Category → List Rule
  | .lifecycleMethods => [
      { name := "componentWillMount"
        deprecatedIn := "16.3.0"
        alternative := "Move initialization to the constructor or side effects to componentDidMount"
        severity := .warning },
      { name := "componentWillReceiveProps"
        deprecatedIn := "16.3.0"
        alternative := "Use componentDidUpdate or static getDerivedStateFromProps"
        severity := .warning },
      { name := "componentWillUpdate"
        deprecatedIn := "16.3.0"
        alternative := "Use componentDidUpdate, or getSnapshotBeforeUpdate for pre-commit reads"
        severity := .warning },
      { name := "UNSAFE_componentWillMount"
        deprecatedIn := "16.9.0"
        alternative := "Move initialization to the constructor or side effects to componentDidMount"
        severity := .error },
      { name := "UNSAFE_componentWillReceiveProps"
        deprecatedIn := "16.9.0"
        alternative := "Use componentDidUpdate or static getDerivedStateFromProps"
        severity := .error },
      { name := "UNSAFE_componentWillUpdate"
        deprecatedIn := "16.9.0"
        alternative := "Use componentDidUpdate, or getSnapshotBeforeUpdate for pre-commit reads"
        severity := .error }]
  | .refs => [
      { name := "String refs"
        deprecatedIn := "16.3.0"
        removedIn := some "19.0.0"
        alternative := "Use useRef or React.createRef and pass the ref object"
        severity := .error }]
  | .context => [
      { name := "Legacy Context"
        deprecatedIn := "16.3.0"
        removedIn := some "19.0.0"
        alternative := "Use React.createContext with a Provider and contextType or useContext"
        severity := .error }]
  | .domMethods => [
      { name := "findDOMNode"
        deprecatedIn := "16.6.0"
        removedIn := some "19.0.0"
        alternative := "Attach a ref to the DOM element instead"
        severity := .error }]
  | .rendering => [
      { name := "ReactDOM.render"
        deprecatedIn := "18.0.0"
        removedIn := some "19.0.0"
        alternative := "Use createRoot(container).render(element) from react-dom/client"
        severity := .error },
      { name := "ReactDOM.hydrate"
        deprecatedIn := "18.0.0"
        removedIn := some "19.0.0"
        alternative := "Use hydrateRoot(container, element) from react-dom/client"
        severity := .error },
      { name := "ReactDOM.unmountComponentAtNode"
        deprecatedIn := "18.0.0"
        removedIn := some "19.0.0"
        alternative := "Call root.unmount() on the root returned by createRoot"
        severity := .error }]
  | .factory => [
      { name := "createFactory"
        deprecatedIn := "16.13.0"
        removedIn := some "19.0.0"
        alternative := "Use JSX or React.createElement directly"
        severity := .error }]
  | .patterns => [
      { name := "defaultProps on function components"
        deprecatedIn := "18.3.0"
        removedIn := some "19.0.0"
        alternative := "Use ES6 default parameter values in the function signature"
        severity := .warning }]
  | .testing => [
      { name := "react-dom/test-utils"
        deprecatedIn := "18.3.0"
        removedIn := some "19.0.0"
        alternative := "Import act from 'react' and use @testing-library/react"
        severity := .warning
        pattern := some "import \x7b act \x7d from 'react-dom/test-utils'" },
      { name := "react-test-renderer/shallow"
        deprecatedIn := "18.3.0"
        removedIn := some "19.0.0"
        alternative := "Install react-shallow-renderer or test with @testing-library/react"
        severity := .warning
        pattern := some "import ShallowRenderer from 'react-test-renderer/shallow'" }]

/-- The catalog that is used unless another one is named. -/
def react : Catalog := ⟨reactRules⟩

end Uplift.Catalog
